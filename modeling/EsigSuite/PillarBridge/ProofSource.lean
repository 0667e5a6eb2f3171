import EsigSuite.Lib.OrderedMap
import EsigSuite.Lib.Utf8
import EsigSuite.Lib.Window
import EsigSuite.Worm.AuditRow
import Mathlib.Data.List.Sort

/-!
# The source of identity proofs

`PillarProofSource` of `esig-pillar-bridge/src/proofs.ts`: what it does with the
envelopes of one fetch, what it saves and what it finds after a restart.
-/

namespace EsigSuite.PillarBridge.ProofSource

open Lib Json

def MAX_SEEN_ENVELOPE_IDS : Nat := 2000

/-- 14 days in milliseconds. -/
def MAX_SEEN_AGE_MS : Int := 14 * 24 * 60 * 60 * 1000

def DEFAULT_MAX_ENVELOPES_PER_SENDER_PER_MINUTE : Nat := 30

def RATE_WINDOW_MS : Int := 60000

def DEFAULT_MAX_ENVELOPE_BYTES : Nat := 512 * 1024

-- ---------------------------------------------------------------------------
-- Envelopes and payloads
-- ---------------------------------------------------------------------------

/-- An envelope as it was parsed, of which these members are texts. -/
structure PillarEnvelope where
  json : Json
  id : JsString
  sender : JsString
  kind : JsString
  hasId : member json "id" = some (.string id)
  hasSender : member json "sender" = some (.string sender)
  hasKind : member json "kind" = some (.string kind)

def textAt (value : Json) (key : String) : Option JsString :=
  match member value key with
  | some (.string text) => some text
  | _ => none

def isDataIntegrityProofLike (v : Json) : Bool :=
  isString (js "DataIntegrityProof") (member v "type") &&
    ["cryptosuite", "created", "verificationMethod", "proofPurpose", "proofValue"].all fun key =>
      (textAt v key).isSome

structure IdentityProofPayload where
  envelopeId : JsString
  signerId : JsString
  uuaid : JsString
  proof : Json
  expiresAt : JsString
  credential : Option Json

/-- Nothing where it is not one. -/
def isIdentityProofPayload (v : Json) : Option IdentityProofPayload := do
  if !isNumber 1 (member v "v") then none
  else
    let envelopeId ← textAt v "envelopeId"
    let signerId ← textAt v "signerId"
    let uuaid ← textAt v "uuaid"
    let expiresAt ← textAt v "expiresAt"
    let proof ← (member v "proof").filter (isDataIntegrityProofLike ·)
    some ⟨envelopeId, signerId, uuaid, proof, expiresAt, member v "credential"⟩

structure IdentityProofEvent where
  envelopeId : JsString
  signerId : JsString
  uuaid : JsString
  proof : Json
  credential : Option Json
  senderUuaid : JsString
  pillarEnvelopeId : JsString

/-- What `open` and `decrypt` of Pillar answer, and `Date.parse`. -/
structure Pillar where
  opens : PillarEnvelope → Bool
  decrypt : PillarEnvelope → Option Json
  dateParse : JsString → Option Int

structure PillarProofSourceOptions where
  /-- At a time. -/
  isAllowedSender : Option (JsString → Int → Bool) := none
  maxEnvelopesPerSenderPerMinute : Option Nat := none
  maxEnvelopeBytes : Option Nat := none

namespace PillarProofSourceOptions
variable (opts : PillarProofSourceOptions)

def allows (sender : JsString) (now : Int) : Bool :=
  (opts.isAllowedSender.getD fun _ _ => false) sender now

def senderCap : Nat :=
  opts.maxEnvelopesPerSenderPerMinute.getD DEFAULT_MAX_ENVELOPES_PER_SENDER_PER_MINUTE

def sizeCap : Nat := opts.maxEnvelopeBytes.getD DEFAULT_MAX_ENVELOPE_BYTES

end PillarProofSourceOptions

def serializedBytes (envelope : PillarEnvelope) : Nat :=
  (Utf8.encode (stringify envelope.json)).length

-- ---------------------------------------------------------------------------
-- The state
-- ---------------------------------------------------------------------------

abbrev Seen := List (JsString × Int)

structure ProofSourceState where
  since : Int := 0
  seenEnvelopeIds : Seen := []

abbrev Windows := List (JsString × List Int)

structure PillarProofSource where
  state : ProofSourceState := {}
  senderRateWindows : Windows := []

/-- `Object.entries`: array indices come first, in ascending order. -/
def entriesOf (seen : Seen) : Seen :=
  (seen.filter fun entry => (Worm.arrayIndex? entry.1).isSome).insertionSort
    (fun a b => (Worm.arrayIndex? a.1).getD 0 ≤ (Worm.arrayIndex? b.1).getD 0) ++
    seen.filter fun entry => !(Worm.arrayIndex? entry.1).isSome

def pruneSeen (seen : Seen) (now : Int) : Seen :=
  let entries := (entriesOf seen).filter fun entry => now - MAX_SEEN_AGE_MS ≤ entry.2
  window MAX_SEEN_ENVELOPE_IDS (entries.insertionSort fun a b => a.2 ≤ b.2)

def markSeen (seen : Seen) (envelopeId : JsString) (now : Int) : Seen :=
  pruneSeen (OrderedMap.set seen envelopeId now) now

/-- `seenEnvelopeIds[id] !== undefined`, also for what every object inherits. -/
def isSeen (seen : Seen) (id : JsString) : Bool :=
  (OrderedMap.get seen id).isSome || decide (id ∈ Worm.OBJECT_PROTOTYPE)

/-- Those within the minute. -/
def recentOf (windows : Windows) (sender : JsString) (now : Int) : List Int :=
  ((OrderedMap.get windows sender).getD []).filter fun t => now - RATE_WINDOW_MS < t

def consumeRateBudget (cap : Nat) (windows : Windows) (sender : JsString) (now : Int) :
    Bool × Windows :=
  let recent := recentOf windows sender now
  if cap ≤ recent.length then (false, OrderedMap.set windows sender recent)
  else (true, OrderedMap.set windows sender (recent ++ [now]))

-- ---------------------------------------------------------------------------
-- One envelope
-- ---------------------------------------------------------------------------

inductive Event
  /-- Within the cap of its sender, and what `onProof` was called with. -/
  | admitted (envelope : PillarEnvelope) (now : Int) (proof : Option IdentityProofEvent)
  | saved
  /-- The file was left incomplete. -/
  | torn
  /-- The process stopped, and another has loaded the file. -/
  | restarted

section
variable (pillar : Pillar) (opts : PillarProofSourceOptions)

/-- What of an envelope within the cap reaches `onProof`. -/
def proofOf (envelope : PillarEnvelope) (now : Int) : Option IdentityProofEvent := do
  let payload ← (pillar.decrypt envelope).bind isIdentityProofPayload
  let expiresAtMs ← pillar.dateParse payload.expiresAt
  if expiresAtMs ≤ now then none
  else
    some ⟨payload.envelopeId, payload.signerId, payload.uuaid, payload.proof, payload.credential,
      envelope.sender, envelope.id⟩

def handleEnvelope (source : PillarProofSource) (envelope : PillarEnvelope) (now : Int) :
    PillarProofSource × List Event :=
  if envelope.kind ≠ js "esig:identity-proof" then (source, [])
  else if isSeen source.state.seenEnvelopeIds envelope.id then (source, [])
  else if opts.sizeCap < serializedBytes envelope then (source, [])
  else if !pillar.opens envelope then (source, [])
  else if !opts.allows envelope.sender now then (source, [])
  else
    let (within, windows) :=
      consumeRateBudget opts.senderCap source.senderRateWindows envelope.sender now
    if !within then ({ source with senderRateWindows := windows }, [])
    else
      match proofOf pillar envelope now with
      | none => ({ source with senderRateWindows := windows }, [.admitted envelope now none])
      | some proof =>
        ({ source with
            state.seenEnvelopeIds := markSeen source.state.seenEnvelopeIds envelope.id now
            senderRateWindows := windows },
          [.admitted envelope now (some proof)])

/-- An envelope of a fetch, handled at a time. -/
structure Fetched where
  seq : Int
  envelope : PillarEnvelope
  now : Int

def PillarProofSource.advance (source : PillarProofSource) (seq : Int) : PillarProofSource :=
  { source with state.since := max source.state.since seq }

/-- What happened, the latest first. -/
def handleAll (source : PillarProofSource) : List Fetched → PillarProofSource × List Event
  | [] => (source, [])
  | one :: rest =>
    let handled := handleEnvelope pillar opts (source.advance one.seq) one.envelope one.now
    let more := handleAll handled.1 rest
    (more.1, more.2 ++ handled.2)

end

-- ---------------------------------------------------------------------------
-- Runs
-- ---------------------------------------------------------------------------

structure World where
  source : PillarProofSource := {}
  /-- Nothing where there is no file, or none that parses. -/
  file : Option ProofSourceState := none
  /-- The latest first. -/
  history : List Event := []

/-- What is handled between two fetches is handled without a break, so passes that
overlap come one after another. -/
inductive Next (pillar : Pillar) (opts : PillarProofSourceOptions) : World → World → Prop
  | pass (fetched : List Fetched) (handled : handleAll pillar opts source fetched = (after, events)) :
      Next pillar opts ⟨source, file, history⟩ ⟨after, some after.state, .saved :: (events ++ history)⟩
  /-- `saveState` fails after it has begun to write. -/
  | torn (fetched : List Fetched) (handled : handleAll pillar opts source fetched = (after, events)) :
      Next pillar opts ⟨source, file, history⟩ ⟨after, none, .torn :: (events ++ history)⟩
  /-- Before `saveState` writes: a callback or Pillar throws at the envelope after
  these, or once these have been handled. -/
  | threw (fetched : List Fetched) (seq : Option Int)
      (handled : handleAll pillar opts source fetched = (after, events)) :
      Next pillar opts ⟨source, file, history⟩
        ⟨seq.elim after after.advance, file, events ++ history⟩
  | restart :
      Next pillar opts ⟨source, file, history⟩ ⟨⟨file.getD {}, []⟩, file, .restarted :: history⟩

end EsigSuite.PillarBridge.ProofSource
