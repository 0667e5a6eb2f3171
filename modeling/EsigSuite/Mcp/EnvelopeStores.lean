import EsigSuite.Envelope.Changes
import EsigSuite.Lib.KeyedMutex

/-!
# The envelope file and its compare-and-swap

`FsEnvelopeStore` over one JSON file, `ConcurrencySafeEnvelopeStore` around it,
and clients that find, edit, insert and update envelopes and call the envelope
functions. A `who` names the client and is not data of the program.
-/

namespace EsigSuite

open Lib

-- ---------------------------------------------------------------------------
-- What is shared
-- ---------------------------------------------------------------------------

/-- The row a token is looked up in. -/
def rowOf (rows : List (Envelope μ)) (tokenHash : String) : Option (Envelope μ) :=
  rows.find? fun e => e.signers.any (·.tokenHash == tokenHash)

/-- The token can still sign or decline. -/
def Envelope.usable (e : Envelope μ) (tokenHash : String) : Bool :=
  e.live && (e.signerOf tokenHash).any (·.2.status != .signed)

def usableIn (rows : List (Envelope μ)) (tokenHash : String) : Bool :=
  (rowOf rows tokenHash).any (·.usable tokenHash)

/-- Every token stays with its envelope, and none becomes usable again. -/
def TokensKept (rows rows' : List (Envelope μ)) : Prop :=
  ∀ tokenHash e, rowOf rows tokenHash = some e →
    ∃ e', rowOf rows' tokenHash = some e' ∧ e'.id = e.id ∧
      (e'.usable tokenHash = true → e.usable tokenHash = true)

namespace EnvelopeFile

/-- One write of the file, for the record: the row, and the revision its writer
had read, if it is an update. `raw` is a client's own update. -/
structure Write (μ : Type) where
  row : Envelope μ
  readRev : Option Nat
  raw : Bool

/-- The file and the mutex. The other fields only record what happened:
every write, who took away a token's use, which tokens led to a returned
signature or refusal, and whether a client's own update broke `TokensKept`. -/
structure Shared (μ ι : Type) where
  rows : List (Envelope μ)
  mutex : KeyedMutex String ι
  history : List (Write μ)
  grantee : String → Option ι
  acted : List String
  tampered : Prop

inductive Op (μ ι : Type)
  | now
  | random
  | readFile
  | rename (who : ι) (rows : List (Envelope μ)) (write : Write μ)
  | enter (key : String) (who : ι)
  | wait (prev : Option Nat)
  | release (key : String) (mine : Nat)
  /-- An update of an object starts. -/
  | begin (unfinished : Bool)
  /-- A signature or a refusal was returned. -/
  | acted (tokenHash : String)

def Res : Op μ ι → Type
  | .now => Time
  | .random => String
  | .readFile => Except Thrown (List (Envelope μ))
  | .rename .. => Except Thrown Unit
  | .enter .. => Option Nat × Nat
  | .wait _ | .release .. | .begin _ | .acted _ => Unit

def Shared.renamed (s : Shared μ ι) (who : ι) (rows : List (Envelope μ)) (w : Write μ) :
    Shared μ ι where
  rows
  mutex := s.mutex
  history := s.history ++ [w]
  grantee tokenHash :=
    if usableIn s.rows tokenHash && !usableIn rows tokenHash then some who
    else s.grantee tokenHash
  acted := s.acted
  tampered := s.tampered ∨ (w.raw = true ∧ ¬ TokensKept s.rows rows)

/-- Reading and renaming the file may fail, without effect. -/
def exec : (op : Op μ ι) → Shared μ ι → Res op → Shared μ ι → Prop
  | .now, s, _, s' | .random, s, _, s' | .begin _, s, _, s' => s' = s
  | .readFile, s, r, s' => s' = s ∧ (r = .ok s.rows ∨ ∃ t, r = .error t)
  | .rename who rows w, s, r, s' =>
    (r = .ok () ∧ s' = s.renamed who rows w) ∨ ((∃ t, r = .error t) ∧ s' = s)
  | .enter key who, s, r, s' =>
    r = (s.mutex.enter key who).1 ∧ s' = { s with mutex := (s.mutex.enter key who).2 }
  | .wait prev, s, _, s' => s.mutex.resolved prev ∧ s' = s
  | .release key mine, s, _, s' => s' = { s with mutex := s.mutex.release key mine }
  | .acted tokenHash, s, _, s' => s' = { s with acted := tokenHash :: s.acted }

abbrev M (μ ι : Type) := ExceptT Thrown (Prog (Op μ ι) Res)

def mutexOps (who : ι) : MutexOps (Prog (Op μ ι) Res) String where
  enter key := Prog.perform (Op.enter key who)
  wait prev := Prog.perform (Op.wait prev)
  release key mine := Prog.perform (Op.release key mine)

/-- `hashToken` and `assertImageDataUrl` are arbitrary functions. -/
def env (hashToken : String → String) (assertImageDataUrl : String → Option String) :
    EnvelopeEnv (M μ ι) where
  now := ExceptT.lift (Prog.perform Op.now)
  randomToken := ExceptT.lift (Prog.perform Op.random)
  randomUUID := ExceptT.lift (Prog.perform Op.random)
  hashToken
  assertImageDataUrl

-- ---------------------------------------------------------------------------
-- FsEnvelopeStore
-- ---------------------------------------------------------------------------

namespace FsEnvelopeStore

def rows : M μ ι (List (Envelope μ)) := ExceptT.mk (Prog.perform Op.readFile)

/-- The directory, the temporary file and the rename; only the rename shows. -/
def writeJsonAtomic (who : ι) (rows : List (Envelope μ)) (w : Write μ) : M μ ι Unit :=
  ExceptT.mk (Prog.perform (Op.rename who rows w))

def insert (who : ι) (envelope : Envelope μ) : M μ ι (Envelope μ) := do
  let rows ← rows
  writeJsonAtomic who (rows ++ [envelope]) ⟨envelope, none, false⟩
  return envelope

def update (who : ι) (raw : Bool) (readRev : Nat) (envelope : Envelope μ) :
    M μ ι (Envelope μ) := do
  let rows ← rows
  match rows.findIdx? (·.id == envelope.id) with
  | none => throw (.error ("FsEnvelopeStore: envelope not found: " ++ envelope.id))
  | some i =>
    writeJsonAtomic who (rows.set i envelope) ⟨envelope, some readRev, raw⟩
    return envelope

def findById (tenantId id : String) : M μ ι (Option (Envelope μ)) := do
  return (← rows).find? fun r => r.tenantId == tenantId && r.id == id

def findByTokenHash (tokenHash : String) : M μ ι (Option (Envelope μ)) := do
  return rowOf (← rows) tokenHash

end FsEnvelopeStore

-- ---------------------------------------------------------------------------
-- ConcurrencySafeEnvelopeStore
-- ---------------------------------------------------------------------------

def getRev (e : Envelope μ) : Nat := e.mcpRev.getD 0

def setRev (e : Envelope μ) (rev : Nat) : Envelope μ := { e with mcpRev := some rev }

/-- A caller's envelope object. `readRev` is the revision it was read at or last
written as; `unfinished` is that an update has stamped the object with the next
revision and has not written it. -/
structure Object (μ : Type) where
  val : Envelope μ
  readRev : Nat
  unfinished : Bool

def Object.read (e : Envelope μ) : Object μ := ⟨e, getRev e, false⟩

namespace ConcurrencySafe

def STORE_KEY : String := "__store__"

def insert (who : ι) (envelope : Envelope μ) : M μ ι (Envelope μ) :=
  KeyedMutex.run (mutexOps who) STORE_KEY (FsEnvelopeStore.insert who (setRev envelope 0))

/-- The object of the caller is changed in place: a throw leaves it as it then
is. -/
def update (who : ι) (raw : Bool) (envelope : Object μ) :
    ExceptT (Object μ × Thrown) (Prog (Op μ ι) Res) (Object μ) := do
  let expected := getRev envelope.val
  ExceptT.lift (Prog.perform (Op.begin envelope.unfinished))
  KeyedMutex.run (mutexOps who) STORE_KEY do
    let fresh ← (FsEnvelopeStore.findById envelope.val.tenantId envelope.val.id).adapt
      (envelope, ·)
    match fresh with
    | none =>
      throw (envelope,
        .conflict envelope.val.id "envelope not found during concurrency check")
    | some fresh =>
      let current := getRev fresh
      if current ≠ expected then
        throw (envelope, .conflict envelope.val.id
          ("stale write: envelope was read at rev " ++ toString expected ++ ", current rev is " ++
            toString current ++ " (a concurrent update already won)."))
      else
        let envelope :=
          { envelope with val := setRev envelope.val (current + 1), unfinished := true }
        let _ ← (FsEnvelopeStore.update who raw envelope.readRev envelope.val).adapt (envelope, ·)
        return { envelope with readRev := current + 1, unfinished := false }

/-- The store as the envelope functions see it. They drop their object when an
update throws. -/
def store (who : ι) : EnvelopeStore μ (M μ ι) where
  insert := insert who
  update envelope := do
    let envelope ← (update who false (.read envelope)).adapt (·.2)
    return envelope.val
  findById := FsEnvelopeStore.findById
  findByTokenHash := FsEnvelopeStore.findByTokenHash

end ConcurrencySafe

-- ---------------------------------------------------------------------------
-- Clients
-- ---------------------------------------------------------------------------

/-- What a client does to an object it holds. The key and the hidden revision
are not its to change. -/
structure Edit (μ : Type) where
  apply : Envelope μ → Envelope μ
  id_eq : ∀ e, (apply e).id = e.id
  tenantId_eq : ∀ e, (apply e).tenantId = e.tenantId
  mcpRev_eq : ∀ e, (apply e).mcpRev = e.mcpRev

/-- A client holds the objects its calls returned, in a list. -/
inductive Call (μ : Type)
  | findById (tenantId id : String)
  | findByTokenHash (tokenHash : String)
  | edit (object : Nat) (edit : Edit μ)
  | insert (envelope : Envelope μ)
  | update (object : Nat)
  | recordSignature (token signatureImageDataUrl : String) (signedAt : Option Time)
  | declineEnvelope (token : String) (reason : Option String)
  | voidEnvelope (tenantId envelopeId : String)

def Answer : Call μ → Type := fun _ => Except Thrown (Option (Envelope μ))

section
variable (hashToken : String → String) (assertImageDataUrl : String → Option String)

/-- A client keeps what it is given. -/
def keep (objects : List (Object μ)) (x : M μ ι (Option (Envelope μ))) :
    Prog (Op μ ι) Res (Except Thrown (Option (Envelope μ)) × List (Object μ)) := do
  match ← x.run with
  | .ok (some e) => return (.ok (some e), objects ++ [.read e])
  | .ok none => return (.ok none, objects)
  | .error t => return (.error t, objects)

def acting (tokenHash : String) (x : M μ ι (Envelope μ)) : M μ ι (Option (Envelope μ)) := do
  let e ← x
  ExceptT.lift (Prog.perform (Op.acted tokenHash))
  return some e

def perform (who : ι) (objects : List (Object μ)) :
    Call μ → Prog (Op μ ι) Res (Except Thrown (Option (Envelope μ)) × List (Object μ))
  | .findById tenantId id => keep objects (FsEnvelopeStore.findById tenantId id)
  | .findByTokenHash tokenHash => keep objects (FsEnvelopeStore.findByTokenHash tokenHash)
  | .edit i edit =>
    match objects[i]? with
    | none => return (.ok none, objects)
    | some o =>
      let o := { o with val := edit.apply o.val }
      return (.ok (some o.val), objects.set i o)
  | .insert envelope => keep objects (some <$> ConcurrencySafe.insert who envelope)
  | .update i =>
    match objects[i]? with
    | none => return (.ok none, objects)
    | some o => do
      match ← (ConcurrencySafe.update who true o).run with
      | .ok o => return (.ok (some o.val), objects.set i o)
      | .error (o, t) => return (.error t, objects.set i o)
  | .recordSignature token image signedAt =>
    keep objects (acting (hashToken token) (recordSignature (ConcurrencySafe.store who)
      (env hashToken assertImageDataUrl) token image signedAt))
  | .declineEnvelope token reason =>
    keep objects (acting (hashToken token) (declineEnvelope (ConcurrencySafe.store who)
      (env hashToken assertImageDataUrl) token reason))
  | .voidEnvelope tenantId envelopeId =>
    keep objects (some <$> voidEnvelope (ConcurrencySafe.store who)
      (env hashToken assertImageDataUrl) tenantId envelopeId)

/-- A client is any program of calls. -/
def client (who : ι) : List (Object μ) → Prog (Call μ) Answer Unit → Prog (Op μ ι) Res Unit
  | _, .pure () => .pure ()
  | objects, .call c k =>
    (perform hashToken assertImageDataUrl who objects c).bind fun r => client who r.2 (k r.1)

end

end EnvelopeFile

end EsigSuite
