import EsigSuite.Lib.IsoTime
import EsigSuite.Lib.JsonRead

/-!
# Signing certificates on file

`cert-issuer.ts`, `FsCertStore` of `fs-adapters.ts` and `ensureActiveCert` of
`cert-lifecycle.ts`, the last one in the steps between its reads and writes of the
file. `decryptKeyPem_encryptKeyPem`: a wrapped key comes back under its passphrase.
-/

namespace EsigSuite.Certs

open Lib

-- ---------------------------------------------------------------------------
-- Wrapped keys
-- ---------------------------------------------------------------------------

/-- `v1` -/
def ENC_VERSION : List UInt8 := [118, 49]

def IV_LEN : Nat := 12

def SALT_LEN : Nat := 16

def MIN_PASSPHRASE_LEN : Nat := 24

/-- The ciphers of `node:crypto`: `scryptSync`, and `aes-256-gcm` with the ciphertext
and the tag. -/
structure Ciphers where
  scrypt : JsString → List UInt8 → List UInt8
  encrypt : List UInt8 → List UInt8 → List UInt8 → List UInt8 × List UInt8
  decrypt : List UInt8 → List UInt8 → List UInt8 → List UInt8 → Option (List UInt8)

/-- Tags have 16 bytes, and what was encrypted can be decrypted. -/
structure Ciphers.Sound (ciphers : Ciphers) : Prop where
  tag : ∀ key iv plain, (ciphers.encrypt key iv plain).2.length = 16
  decrypt : ∀ key iv plain, ciphers.decrypt key iv (ciphers.encrypt key iv plain).2
    (ciphers.encrypt key iv plain).1 = some plain

/-- What `randomBytes` gives for one key. -/
structure Nonces where
  salt : List UInt8
  iv : List UInt8
  saltLength : salt.length = SALT_LEN
  ivLength : iv.length = IV_LEN

section
variable (ciphers : Ciphers) (passphrase : JsString)

/-- Nothing where the passphrase is too short. -/
def encryptKeyPem (keyPem : List Char) (nonces : Nonces) : Option (List UInt8) :=
  if passphrase.length < MIN_PASSPHRASE_LEN then none
  else
    let key := ciphers.scrypt passphrase nonces.salt
    let sealed_ := ciphers.encrypt key nonces.iv (Utf8.encode keyPem)
    some (ENC_VERSION ++ (nonces.salt ++ (nonces.iv ++ (sealed_.2 ++ sealed_.1))))

/-- Nothing is an error. -/
def decryptKeyPem (blob : List UInt8) : Option (List Char) :=
  if passphrase.length < MIN_PASSPHRASE_LEN then none
  else if Utf8.decode (blob.take 2) ≠ ['v', '1'] then none
  else
    let salt := (blob.drop 2).take SALT_LEN
    let iv := (blob.drop (2 + SALT_LEN)).take IV_LEN
    let authTag := (blob.drop (2 + SALT_LEN + IV_LEN)).take 16
    let ciphertext := blob.drop (2 + SALT_LEN + IV_LEN + 16)
    (ciphers.decrypt (ciphers.scrypt passphrase salt) iv authTag ciphertext).map Utf8.decode

end

-- ---------------------------------------------------------------------------
-- New certificates
-- ---------------------------------------------------------------------------

/-- A valid `Date`, in milliseconds. -/
structure Date where
  ms : Int
  inRange : IsoTime.InRange ms

structure GeneratedCert where
  keyPem : List Char
  certPem : JsString
  fingerprint : JsString
  notBefore : Date
  notAfter : Date

def DEFAULT_CERT_VALIDITY_DAYS : Int := 365

/-- What `node-forge` makes of a new key pair: the key, the certificate and the hash of
its DER encoding. -/
abbrev Issue := JsString → Date → Date → List Char × JsString × JsString

/-- Nothing is an error. -/
def generateSelfSignedCert (issue : Issue) (subjectName : JsString) (now : Date) :
    Option GeneratedCert :=
  if subjectName = [] ∨ !subjectName.all (fun unit => 0x20 ≤ unit && unit ≤ 0x7E) then none
  else
    let ms := now.ms + DEFAULT_CERT_VALIDITY_DAYS * 86400000
    if h : IsoTime.InRange ms then
      let (keyPem, certPem, fingerprint) := issue subjectName now ⟨ms, h⟩
      some ⟨keyPem, certPem, fingerprint, now, ⟨ms, h⟩⟩
    else none

-- ---------------------------------------------------------------------------
-- The store
-- ---------------------------------------------------------------------------

structure CertJson where
  id : JsString
  tenantId : JsString
  certPem : JsString
  keyPemEncrypted : JsString
  certFingerprint : JsString
  notBefore : JsString
  notAfter : JsString
  active : Bool
  rotatedFromId : Option JsString
  createdAt : JsString
  deriving DecidableEq

structure StoredCert where
  id : JsString
  tenantId : JsString
  certPem : JsString
  keyPemEncrypted : List UInt8
  certFingerprint : JsString
  /-- Nothing is NaN. -/
  notBefore : Option Int
  notAfter : Option Int
  active : Bool
  rotatedFromId : Option JsString
  createdAt : Option Int

def textOfDate (date : Date) : JsString := .ofText (IsoTime.toISOString date.ms)

/-- `new Date(text)` of a text that `toISOString` made. -/
def dateOfText (text : JsString) : Option Int := IsoTime.readIso (scalars text)

namespace FsCertStore

def revive (r : CertJson) : StoredCert where
  id := r.id
  tenantId := r.tenantId
  certPem := r.certPem
  keyPemEncrypted := fromBase64 r.keyPemEncrypted
  certFingerprint := r.certFingerprint
  notBefore := dateOfText r.notBefore
  notAfter := dateOfText r.notAfter
  active := r.active
  rotatedFromId := r.rotatedFromId
  createdAt := dateOfText r.createdAt

def findActive (rows : List CertJson) (tenantId : JsString) : Option StoredCert :=
  (rows.find? fun r => r.tenantId = tenantId && r.active).map revive

/-- The row that `insert` adds. -/
def newRow (id tenantId : JsString) (generated : GeneratedCert) (keyPemEncrypted : List UInt8)
    (rotatedFromId : Option JsString) (createdAt : Date) : CertJson where
  id := id
  tenantId := tenantId
  certPem := generated.certPem
  keyPemEncrypted := b64 keyPemEncrypted
  certFingerprint := generated.fingerprint
  notBefore := textOfDate generated.notBefore
  notAfter := textOfDate generated.notAfter
  active := true
  rotatedFromId := rotatedFromId
  createdAt := textOfDate createdAt

/-- What `insert` writes. -/
def inserted (rows : List CertJson) (row : CertJson) : List CertJson :=
  (rows.map fun r => if r.tenantId = row.tenantId then { r with active := false } else r) ++ [row]

/-- What `deactivate` writes, where it finds the row. -/
def deactivated (rows : List CertJson) (id : JsString) : List CertJson :=
  match rows with
  | [] => []
  | r :: rest => if r.id = id then { r with active := false } :: rest else r :: deactivated rest id

end FsCertStore

-- ---------------------------------------------------------------------------
-- Calls
-- ---------------------------------------------------------------------------

/-- Where a call of `ensureActiveCert` or of `deactivate` stands. -/
inductive Phase
  | finding
  /-- `deactivate` is called, for the certificate that is replaced or for a caller. -/
  | deactivating (id : JsString) (existing : Option StoredCert)
  /-- It has read the rows and found the one. -/
  | removing (id : JsString) (existing : Option StoredCert) (rows : List CertJson)
  /-- `insert` is called. -/
  | inserting (generated : GeneratedCert) (keyPemEncrypted : List UInt8)
      (existing : Option StoredCert)
  /-- It has read the rows. -/
  | adding (generated : GeneratedCert) (row : CertJson) (rows : List CertJson)
  | returned (cert : StoredCert) (certPem : JsString) (keyPem : List Char)
  | deactivated
  | failed

structure Call where
  tenantId : JsString
  subjectName : JsString
  phase : Phase

/-- Of all processes that share the file. -/
structure World (ι : Type) where
  file : Option (List CertJson)
  calls : ι → Call
  /-- The rows that `insert` has made, each with its certificate. -/
  made : List (CertJson × GeneratedCert)
  /-- Those that it has written, in order. -/
  written : List JsString
  /-- Whether each write so far was of the rows that were in the file. -/
  undisturbed : Bool

def World.rows {ι : Type} (world : World ι) : List CertJson := world.file.getD []

inductive Request
  | ensureActiveCert (tenantId subjectName : JsString)
  | deactivate (id : JsString)

def Request.call : Request → Call
  | .ensureActiveCert tenantId subjectName => ⟨tenantId, subjectName, .finding⟩
  | .deactivate id => ⟨[], [], .deactivating id none⟩

def World.start {ι : Type} (requests : ι → Request) : World ι :=
  ⟨none, fun i => (requests i).call, [], [], true⟩

def Call.to (call : Call) (phase : Phase) : Call := { call with phase }

/-- What a deployment has in common. -/
structure Setup where
  ciphers : Ciphers
  issue : Issue
  passphrase : JsString

section
variable {ι : Type} [DecidableEq ι] (setup : Setup)

def World.goes (world : World ι) (i : ι) (phase : Phase) : World ι :=
  { world with calls := Function.update world.calls i ((world.calls i).to phase) }

/-- A file that is replaced as a whole. -/
def World.writes (world : World ι) (snapshot rows : List CertJson) : World ι :=
  { world with
    file := some rows
    undisturbed := world.undisturbed && decide (snapshot = world.rows) }

/-- Whether `ensureActiveCert` returns a certificate that is active. -/
def usable (cert : StoredCert) (now : Int) : Bool := cert.notAfter.any (now < ·)

inductive Next : World ι → World ι → Prop
  | use (at_ : (world.calls i).phase = .finding)
      (found : FsCertStore.findActive world.rows (world.calls i).tenantId = some cert)
      (live : usable cert now = true)
      (opened : decryptKeyPem setup.ciphers setup.passphrase cert.keyPemEncrypted = some keyPem) :
      Next world (world.goes i (.returned cert cert.certPem keyPem))
  | replace (at_ : (world.calls i).phase = .finding)
      (found : FsCertStore.findActive world.rows (world.calls i).tenantId = some cert)
      (expired : usable cert now = false) :
      Next world (world.goes i (.deactivating cert.id (some cert)))
  | first (at_ : (world.calls i).phase = .finding)
      (found : FsCertStore.findActive world.rows (world.calls i).tenantId = none)
      (made : generateSelfSignedCert setup.issue (world.calls i).subjectName date = some generated)
      (wrapped : encryptKeyPem setup.ciphers setup.passphrase generated.keyPem nonces = some blob) :
      Next world (world.goes i (.inserting generated blob none))
  | read (at_ : (world.calls i).phase = .deactivating certId existing)
      (found : ∃ r ∈ world.rows, r.id = certId) :
      Next world (world.goes i (.removing certId existing world.rows))
  | skip (at_ : (world.calls i).phase = .deactivating certId none) (gone : ∀ r ∈ world.rows, r.id ≠ certId) :
      Next world (world.goes i .deactivated)
  | skipReplaced (at_ : (world.calls i).phase = .deactivating certId (some existing))
      (gone : ∀ r ∈ world.rows, r.id ≠ certId)
      (made : generateSelfSignedCert setup.issue (world.calls i).subjectName date = some generated)
      (wrapped : encryptKeyPem setup.ciphers setup.passphrase generated.keyPem nonces = some blob) :
      Next world (world.goes i (.inserting generated blob (some existing)))
  | remove (at_ : (world.calls i).phase = .removing certId none rows) :
      Next world ((world.writes rows (FsCertStore.deactivated rows certId)).goes i .deactivated)
  | removeReplaced (at_ : (world.calls i).phase = .removing certId (some existing) rows)
      (made : generateSelfSignedCert setup.issue (world.calls i).subjectName date = some generated)
      (wrapped : encryptKeyPem setup.ciphers setup.passphrase generated.keyPem nonces = some blob) :
      Next world ((world.writes rows (FsCertStore.deactivated rows certId)).goes i
        (.inserting generated blob (some existing)))
  /-- `randomUUID` gives an id that no row has had. -/
  | insert (at_ : (world.calls i).phase = .inserting generated blob existing)
      (fresh : ∀ made ∈ world.made, made.1.id ≠ certId)
      (row_eq : row = FsCertStore.newRow certId (world.calls i).tenantId generated blob
        (existing.map (·.id)) date) :
      Next world
        ({ world with made := world.made ++ [(row, generated)] }.goes i
          (.adding generated row world.rows))
  | add (at_ : (world.calls i).phase = .adding generated row rows) :
      Next world
        ({ world.writes rows (FsCertStore.inserted rows row) with
            written := world.written ++ [row.id] }.goes i
          (.returned (FsCertStore.revive row) generated.certPem generated.keyPem))
  /-- An error, or the process is gone. -/
  | fail (i : ι) : Next world (world.goes i .failed)

end

-- ---------------------------------------------------------------------------
-- A wrapped key comes back
-- ---------------------------------------------------------------------------

theorem decryptKeyPem_encryptKeyPem {ciphers : Ciphers} (hciphers : ciphers.Sound)
    {passphrase : JsString} {keyPem : List Char} {nonces : Nonces} {blob : List UInt8}
    (h : encryptKeyPem ciphers passphrase keyPem nonces = some blob) :
    decryptKeyPem ciphers passphrase blob = some keyPem := by
  unfold encryptKeyPem at h
  split_ifs at h with hlong
  obtain rfl := Option.some.inj h
  have htag := hciphers.tag (ciphers.scrypt passphrase nonces.salt) nonces.iv (Utf8.encode keyPem)
  have hopen := hciphers.decrypt (ciphers.scrypt passphrase nonces.salt) nonces.iv (Utf8.encode keyPem)
  generalize ciphers.encrypt (ciphers.scrypt passphrase nonces.salt) nonces.iv (Utf8.encode keyPem) =
    sealed_ at htag hopen ⊢
  obtain ⟨ciphertext, tag⟩ := sealed_
  dsimp only at htag hopen ⊢
  have hsalt := nonces.saltLength
  have hiv := nonces.ivLength
  unfold decryptKeyPem
  have hversion : (ENC_VERSION ++ (nonces.salt ++ (nonces.iv ++ (tag ++ ciphertext)))).take 2 =
      ENC_VERSION := List.take_left' rfl
  have hread : Utf8.decode ENC_VERSION = ['v', '1'] := Utf8.decode_encode ['v', '1']
  rw [if_neg hlong, if_neg (by rw [hversion, hread]; exact not_not.mpr rfl)]
  have hdropVersion : (ENC_VERSION ++ (nonces.salt ++ (nonces.iv ++ (tag ++ ciphertext)))).drop 2 =
      nonces.salt ++ (nonces.iv ++ (tag ++ ciphertext)) := List.drop_left' rfl
  have hdropSalt : (ENC_VERSION ++ (nonces.salt ++ (nonces.iv ++ (tag ++ ciphertext)))).drop
      (2 + SALT_LEN) = nonces.iv ++ (tag ++ ciphertext) := by
    rw [← List.drop_drop, hdropVersion]
    exact List.drop_left' hsalt
  have hdropIv : (ENC_VERSION ++ (nonces.salt ++ (nonces.iv ++ (tag ++ ciphertext)))).drop
      (2 + SALT_LEN + IV_LEN) = tag ++ ciphertext := by
    rw [← List.drop_drop, hdropSalt]
    exact List.drop_left' hiv
  have hdropTag : (ENC_VERSION ++ (nonces.salt ++ (nonces.iv ++ (tag ++ ciphertext)))).drop
      (2 + SALT_LEN + IV_LEN + 16) = ciphertext := by
    rw [← List.drop_drop, hdropIv]
    exact List.drop_left' htag
  dsimp only
  rw [hdropVersion, hdropSalt, hdropIv, hdropTag, List.take_left' hsalt, List.take_left' hiv,
    List.take_left' htag, hopen, Option.map_some, Utf8.decode_encode]

end EsigSuite.Certs
