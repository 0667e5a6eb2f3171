import EsigSuite.Exchange.Jcs
import EsigSuite.Lib.FirstOk
import Mathlib.Data.List.Nodup

/-!
# Revocation lists

`esig-uaid-exch/src/revocation.ts`. A list is appended to and digested again, and
only while its digest verifies, so every run of revocations keeps what an earlier
one wrote.
-/

namespace EsigSuite.Exchange

open Lib

/-- A list as it arrives: nothing is known of its fields. -/
structure RevocationList where
  id : JsValue
  issuer : JsValue
  issued : JsValue
  revoked : JsValue
  digest : JsValue

inductive RevocationError
  | RevocationListIntegrityError (listId : JsValue)
  | thrown (message : JsString)

/-- The items of an array. -/
def RevocationList.entries (list : RevocationList) : List JsValue :=
  match list.revoked with
  | .array items => items
  | _ => []

/-- `value.key`, which throws on null and undefined. -/
def read (value : JsValue) (key : String) : Except JsString JsValue :=
  match value with
  | .undefined | .null => .error (js "TypeError")
  | .object members => .ok ((members.find? (·.1 == js key)).elim .undefined (·.2))
  | _ => .ok .undefined

/-- `value === text` -/
def isText (text : JsString) : JsValue → Bool
  | .string s => s == text
  | _ => false

variable (sha256Hex : Bytes → JsString)

def computeListDigest (id issuer issued revoked : JsValue) : Except JsString JsString := do
  let bytes ← jcsBytes (.object [(js "id", id), (js "issuer", issuer), (js "issued", issued),
    (js "revoked", revoked)])
  return js "sha256:" ++ sha256Hex bytes

def verifyRevocationListIntegrity (list : RevocationList) : Bool :=
  match list.id, list.issuer, list.issued, list.digest, list.revoked with
  | .string _, .string _, .string _, .string digest, .array _ =>
    match computeListDigest sha256Hex list.id list.issuer list.issued list.revoked with
    | .ok computed => computed == digest
    | .error _ => false
  | _, _, _, _, _ => false

def findEntry (credentialId : JsString) : List JsValue → Except JsString (Option JsValue)
  | [] => .ok none
  | entry :: entries => do
    if isText credentialId (← read entry "credentialId") then return some entry
    else findEntry credentialId entries

def findRevocationEntry (list : RevocationList) (credentialId : JsString) :
    Except RevocationError (Option JsValue) :=
  (findEntry credentialId list.entries).mapError .thrown

/-- `now` is the text of the clock, which an invalid date does not have. -/
def createRevocationList (issuer : JsString) (now : Except JsString JsString) (id : JsString) :
    Except JsString RevocationList := do
  let issued ← now
  let listId := JsValue.string (js "uuaid:foundation:revocation-list:" ++ id)
  let digest ← computeListDigest sha256Hex listId (.string issuer) (.string issued) (.array [])
  return ⟨listId, .string issuer, .string issued, .array [], .string digest⟩

def revocationEntry (credentialId now : JsString) (reason : Option JsString) : JsValue :=
  .object ([(js "credentialId", .string credentialId), (js "revokedAt", .string now)] ++
    reason.toList.map fun reason => (js "reason", .string reason))

def revokeCredential (list : RevocationList) (credentialId : JsString) (reason : Option JsString)
    (now : Except JsString JsString) : Except RevocationError RevocationList :=
  if ¬ verifyRevocationListIntegrity sha256Hex list then
    .error (.RevocationListIntegrityError list.id)
  else do
    if (← findRevocationEntry list credentialId).isSome then return list
    else
      let now ← now.mapError .thrown
      let revoked := JsValue.array (list.entries ++ [revocationEntry credentialId now reason])
      let digest ←
        (computeListDigest sha256Hex list.id list.issuer (.string now) revoked).mapError .thrown
      return { list with issued := .string now, revoked, digest := .string digest }

def isRevoked (list : RevocationList) (credentialId : JsString) : Except RevocationError Bool :=
  if ¬ verifyRevocationListIntegrity sha256Hex list then
    .error (.RevocationListIntegrityError list.id)
  else do return (← findRevocationEntry list credentialId).isSome

/-- The arguments of a call behind the list. -/
structure RevokeCall where
  credentialId : JsString
  reason : Option JsString
  now : Except JsString JsString

/-- A call that throws leaves the list that the caller has. -/
def revokeOnce (list : RevocationList) (call : RevokeCall) : RevocationList :=
  match revokeCredential sha256Hex list call.credentialId call.reason call.now with
  | .ok list => list
  | .error _ => list

def revokeAll (list : RevocationList) (calls : List RevokeCall) : RevocationList :=
  calls.foldl (revokeOnce sha256Hex) list

-- ---------------------------------------------------------------------------
-- What is promised
-- ---------------------------------------------------------------------------

/-- The credential an entry names. -/
def credentialOf (entry : JsValue) : Option JsString :=
  match read entry "credentialId" with
  | .ok (.string id) => some id
  | _ => none

def Once (list : RevocationList) : Prop := (list.entries.filterMap credentialOf).Nodup

/-- What a later revision of a list has kept of an earlier one. -/
structure Kept (before after : RevocationList) : Prop where
  valid : verifyRevocationListIntegrity sha256Hex after = true
  entries : before.entries <+: after.entries
  once : Once before → Once after
  first : ∀ credentialId entry, findRevocationEntry before credentialId = .ok (some entry) →
    findRevocationEntry after credentialId = .ok (some entry)
  revoked : ∀ credentialId, isRevoked sha256Hex before credentialId = .ok true →
    isRevoked sha256Hex after credentialId = .ok true
  /-- Whatever is given for a credential that was revoked before. -/
  repeated : ∀ credentialId entry, findRevocationEntry before credentialId = .ok (some entry) →
    ∀ reason now, revokeCredential sha256Hex after credentialId reason now = .ok after

variable {sha256Hex} {before after list : RevocationList} {credentialId : JsString}

-- ---------------------------------------------------------------------------
-- The digest
-- ---------------------------------------------------------------------------

theorem integrity_iff : verifyRevocationListIntegrity sha256Hex list = true ↔
    ∃ id issuer issued digest items,
      list = ⟨.string id, .string issuer, .string issued, .array items, .string digest⟩ ∧
      computeListDigest sha256Hex (.string id) (.string issuer) (.string issued) (.array items) =
        .ok digest := by
  constructor
  · intro h
    unfold verifyRevocationListIntegrity at h
    split at h
    next id issuer issued digest items hid hissuer hissued hdigest hrevoked =>
      split at h
      next computed hcomputed =>
        rw [hid, hissuer, hissued, hrevoked] at hcomputed
        cases list
        cases hid
        cases hissuer
        cases hissued
        cases hdigest
        cases hrevoked
        exact ⟨id, issuer, issued, digest, items, rfl, beq_iff_eq.mp h ▸ hcomputed⟩
      · cases h
    · cases h
  · rintro ⟨id, issuer, issued, digest, items, rfl, hdigest⟩
    simp only [verifyRevocationListIntegrity, hdigest, beq_self_eq_true]

theorem createRevocationList_ok (issuer now id : JsString) :
    ∃ list, createRevocationList sha256Hex issuer (.ok now) id = .ok list := by
  have hproper : (JsValue.object [
      (js "id", .string (js "uuaid:foundation:revocation-list:" ++ id)), (js "issuer", .string issuer),
      (js "issued", .string now), (js "revoked", .array [])]).Proper := by
    simp only [JsValue.Proper, JsValue.ProperMembers, JsValue.ProperItems, and_true, List.map_cons,
      List.map_nil]
    decide
  obtain ⟨bytes, hbytes⟩ := jcsBytes_ok hproper rfl
  simp only [createRevocationList, computeListDigest, bind, Except.bind, hbytes]
  exact ⟨_, rfl⟩

theorem createRevocationList_valid {issuer id : JsString} {now : Except JsString JsString}
    (h : createRevocationList sha256Hex issuer now id = .ok list) :
    verifyRevocationListIntegrity sha256Hex list = true ∧ list.entries = [] := by
  obtain ⟨issued, hnow, h⟩ := bind_eq_ok.mp h
  obtain ⟨digest, hdigest, h⟩ := bind_eq_ok.mp h
  cases h
  exact ⟨integrity_iff.mpr ⟨_, _, _, _, _, rfl, hdigest⟩, rfl⟩

-- ---------------------------------------------------------------------------
-- The lookup
-- ---------------------------------------------------------------------------

theorem findEntry_append {entries added : List JsValue} {entry : JsValue}
    (h : findEntry credentialId entries = .ok (some entry)) :
    findEntry credentialId (entries ++ added) = .ok (some entry) := by
  induction entries with
  | nil => cases h
  | cons e entries ih =>
    obtain ⟨id, hid, h⟩ := bind_eq_ok.mp h
    rw [List.cons_append, findEntry, hid]
    split at h
    next htext => cases h; exact if_pos htext
    next htext => exact (if_neg htext).trans (ih h)

theorem findEntry_none {entries : List JsValue} (h : findEntry credentialId entries = .ok none) :
    credentialId ∉ entries.filterMap credentialOf := by
  induction entries with
  | nil => exact List.not_mem_nil
  | cons e entries ih =>
    obtain ⟨id, hid, h⟩ := bind_eq_ok.mp h
    split at h
    · cases h
    next htext =>
      intro hmem
      obtain ⟨entry, hentry, hcredential⟩ := List.mem_filterMap.mp hmem
      obtain rfl | hentry := List.mem_cons.mp hentry
      · rw [credentialOf, hid] at hcredential
        split at hcredential
        next heq =>
          cases heq
          cases hcredential
          exact htext (beq_self_eq_true credentialId)
        · cases hcredential
      · exact ih h (List.mem_filterMap.mpr ⟨entry, hentry, hcredential⟩)

theorem credentialOf_revocationEntry (credentialId now : JsString) (reason : Option JsString) :
    credentialOf (revocationEntry credentialId now reason) = some credentialId := by
  rfl

theorem findRevocationEntry_kept (h : before.entries <+: after.entries) {entry : JsValue}
    (hfound : findRevocationEntry before credentialId = .ok (some entry)) :
    findRevocationEntry after credentialId = .ok (some entry) := by
  obtain ⟨added, hadded⟩ := h
  have hfind := mapError_eq_ok.mp hfound
  rw [findRevocationEntry, ← hadded, findEntry_append hfind]
  rfl

theorem isRevoked_iff : isRevoked sha256Hex list credentialId = .ok true ↔
    verifyRevocationListIntegrity sha256Hex list = true ∧
      ∃ entry, findRevocationEntry list credentialId = .ok (some entry) := by
  unfold isRevoked
  split
  next h => simp [h]
  next h =>
    rw [not_not] at h
    simp only [h, true_and, bind_eq_ok, pure, Except.pure, Except.ok.injEq]
    constructor
    · rintro ⟨found, hfound, hsome⟩
      obtain ⟨entry, rfl⟩ := Option.isSome_iff_exists.mp hsome
      exact ⟨entry, hfound⟩
    · rintro ⟨entry, hfound⟩
      exact ⟨some entry, hfound, rfl⟩

-- ---------------------------------------------------------------------------
-- One call
-- ---------------------------------------------------------------------------

/-- What goes on where a list goes on is kept. -/
theorem Kept.of_grown (hvalid : verifyRevocationListIntegrity sha256Hex after = true)
    (hentries : before.entries <+: after.entries) (honce : Once before → Once after) :
    Kept sha256Hex before after where
  valid := hvalid
  entries := hentries
  once := honce
  first _ _ := findRevocationEntry_kept hentries
  revoked credentialId h := by
    obtain ⟨-, entry, hfound⟩ := isRevoked_iff.mp h
    exact isRevoked_iff.mpr ⟨hvalid, entry, findRevocationEntry_kept hentries hfound⟩
  repeated credentialId entry h reason now := by
    rw [revokeCredential, if_neg (not_not.mpr hvalid), findRevocationEntry_kept hentries h]
    rfl

theorem revokeCredential_kept {reason : Option JsString} {now : Except JsString JsString}
    (h : revokeCredential sha256Hex before credentialId reason now = .ok after) :
    Kept sha256Hex before after := by
  unfold revokeCredential at h
  split at h
  · cases h
  next hvalid =>
    rw [not_not] at hvalid
    obtain ⟨found, hfound, h⟩ := bind_eq_ok.mp h
    split at h
    · cases h
      exact .of_grown hvalid (List.prefix_refl _) id
    next hnone =>
      obtain ⟨text, -, h⟩ := bind_eq_ok.mp h
      obtain ⟨digest, hdigest, h⟩ := bind_eq_ok.mp h
      cases h
      obtain ⟨id, issuer, issued, digest', items, rfl, -⟩ := integrity_iff.mp hvalid
      refine .of_grown (integrity_iff.mpr ⟨_, _, _, _, _, rfl, mapError_eq_ok.mp hdigest⟩)
        (List.prefix_append _ _) fun honce => ?_
      rw [Option.not_isSome_iff_eq_none] at hnone
      subst hnone
      have hnew := findEntry_none (mapError_eq_ok.mp hfound)
      change (List.filterMap credentialOf (_ ++ [_])).Nodup
      rw [List.filterMap_append, List.filterMap_cons, credentialOf_revocationEntry]
      exact List.Nodup.append honce (List.nodup_singleton credentialId)
        (List.disjoint_singleton.mpr hnew)

-- ---------------------------------------------------------------------------
-- Runs
-- ---------------------------------------------------------------------------

theorem Kept.refl (hvalid : verifyRevocationListIntegrity sha256Hex list = true) :
    Kept sha256Hex list list :=
  .of_grown hvalid (List.prefix_refl _) id

theorem Kept.trans {between : RevocationList} (h : Kept sha256Hex before between)
    (h' : Kept sha256Hex between after) : Kept sha256Hex before after :=
  .of_grown h'.valid (h.entries.trans h'.entries) (h'.once ∘ h.once)

theorem revokeOnce_kept (hvalid : verifyRevocationListIntegrity sha256Hex list = true)
    (call : RevokeCall) : Kept sha256Hex list (revokeOnce sha256Hex list call) := by
  unfold revokeOnce
  split
  next after h => exact revokeCredential_kept h
  · exact .refl hvalid

theorem revokeAll_kept (hvalid : verifyRevocationListIntegrity sha256Hex list = true)
    (calls : List RevokeCall) : Kept sha256Hex list (revokeAll sha256Hex list calls) := by
  induction calls generalizing list with
  | nil => exact .refl hvalid
  | cons call calls ih =>
    have hfirst := revokeOnce_kept hvalid call
    exact hfirst.trans (ih hfirst.valid)

/-- A list that verifies keeps its entries through any calls, and a list that was
created here never holds a credential twice. -/
theorem revocations_kept (sha256Hex : Bytes → JsString) :
    (∀ list, verifyRevocationListIntegrity sha256Hex list = true → ∀ calls later,
      Kept sha256Hex list (revokeAll sha256Hex list calls) ∧
      Kept sha256Hex (revokeAll sha256Hex list calls) (revokeAll sha256Hex list (calls ++ later))) ∧
    ∀ issuer now id list, createRevocationList sha256Hex issuer now id = .ok list → ∀ calls,
      verifyRevocationListIntegrity sha256Hex (revokeAll sha256Hex list calls) = true ∧
      Once (revokeAll sha256Hex list calls) := by
  constructor
  · intro list hvalid calls later
    have hkept := revokeAll_kept hvalid calls
    refine ⟨hkept, ?_⟩
    rw [revokeAll, revokeAll, List.foldl_append]
    exact revokeAll_kept hkept.valid later
  · intro issuer now id list hcreated calls
    obtain ⟨hvalid, hempty⟩ := createRevocationList_valid hcreated
    have hkept := revokeAll_kept hvalid calls
    refine ⟨hkept.valid, hkept.once ?_⟩
    rw [Once, hempty]
    exact List.nodup_nil

end EsigSuite.Exchange
