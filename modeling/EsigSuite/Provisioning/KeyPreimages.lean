import EsigSuite.Lib.Delimited
import EsigSuite.Provisioning.Orchestrator

/-!
# What a resource key tells of its resource

`deterministicResourceKey` and `deterministicCredentialHandoffId` hash a text that
joins free-form parts with colons. A part may hold a colon itself, so a text may
be cut in several ways, and the other cuts pass the same validation.
-/

namespace EsigSuite.Provisioning

open Lib

/-- The text that `digestIdentifier` hashes. -/
def identifierPreimage (space value : String) : String := "e-sig-cloud:v1:" ++ space ++ ":" ++ value

theorem digestIdentifier_eq (h : Hashing) {space value : String} (hvalue : value ≠ "") :
    digestIdentifier h space value =
      .ok (String.ofList ((h.sha256Hex (identifierPreimage space value)).toList.take 24)) :=
  if_neg hvalue

/-- The arguments of `deterministicResourceKey`. -/
structure ResourceIdentity where
  subscriptionId : String
  step : ProvisioningStep
  kind : String
  opaqueId : String
  deriving DecidableEq

namespace ResourceIdentity

def preimage (r : ResourceIdentity) : String :=
  identifierPreimage ("resource:" ++ r.step.text ++ ":" ++ r.kind) (r.subscriptionId ++ ":" ++ r.opaqueId)

theorem key_eq (h : Hashing) (r : ResourceIdentity) :
    deterministicResourceKey h r.subscriptionId r.step r.kind r.opaqueId =
      .ok ("resource_" ++ String.ofList ((h.sha256Hex r.preimage).toList.take 24)) := by
  have hne : r.subscriptionId ++ ":" ++ r.opaqueId ≠ "" := by
    intro heq
    have hlist := congrArg String.toList heq
    simp at hlist
  rw [deterministicResourceKey, digestIdentifier_eq h hne]
  rfl

/-- What `persistStepResources` lets through, for a subscription that an event may name. -/
structure Admitted (r : ResourceIdentity) : Prop where
  subscriptionId : r.subscriptionId ≠ ""
  safe : resourceInputIsSafe ⟨r.kind, r.opaqueId, .mutable⟩ = true

/-- No colon of the parts can be taken for a joint: none in the kind, none in the
opaque id but at its very end, and none in the subscription id whose two sides
go with their neighbours. -/
structure Separated (r : ResourceIdentity) : Prop where
  kind : ':' ∉ r.kind.toList
  opaqueId : ∀ front rest, r.opaqueId = front ++ ":" ++ rest → rest = ""
  toOpaqueId : ∀ front rest, r.subscriptionId = front ++ ":" ++ rest →
    ¬ Admitted ⟨front, r.step, r.kind, rest ++ ":" ++ r.opaqueId⟩
  toKind : ∀ front rest, r.subscriptionId = front ++ ":" ++ rest →
    ¬ Admitted ⟨rest, r.step, r.kind ++ ":" ++ front, r.opaqueId⟩

-- ---------------------------------------------------------------------------
-- The text as letters
-- ---------------------------------------------------------------------------

theorem step_bare (step : ProvisioningStep) : ':' ∉ step.text.toList := by
  cases step <;> decide

theorem step_inj {step step' : ProvisioningStep} (h : step.text.toList = step'.text.toList) :
    step = step' := by
  cases step <;> cases step' <;> first | rfl | (revert h; decide)

/-- The parts behind the step. -/
def body (r : ResourceIdentity) : List Char :=
  r.kind.toList ++ ':' :: (r.subscriptionId.toList ++ ':' :: r.opaqueId.toList)

theorem preimage_toList (r : ResourceIdentity) :
    r.preimage.toList = "e-sig-cloud:v1:resource:".toList ++ (r.step.text.toList ++ ':' :: r.body) := by
  simp [preimage, identifierPreimage, body]

theorem preimage_eq_iff {r r' : ResourceIdentity} :
    r'.preimage = r.preimage ↔ r'.step = r.step ∧ r'.body = r.body := by
  rw [← String.toList_inj, preimage_toList, preimage_toList, List.append_cancel_left_eq]
  constructor
  · intro h
    rcases Delimited.cut_cases h with ⟨hstep, hbody⟩ | ⟨c, hstep, -⟩ | ⟨c, hstep, -⟩
    · exact ⟨step_inj hstep, hbody⟩
    · exact absurd (hstep ▸ by simp) (step_bare r.step)
    · exact absurd (hstep ▸ by simp) (step_bare r'.step)
  · rintro ⟨hstep, hbody⟩
    rw [hstep, hbody]

/-- A text with a colon, as the two sides of it. -/
theorem exists_sides {text : String} {front rest : List Char} (h : text.toList = front ++ ':' :: rest) :
    text = String.ofList front ++ ":" ++ String.ofList rest := by
  rw [← String.toList_inj, h]
  simp

-- ---------------------------------------------------------------------------
-- The validation
-- ---------------------------------------------------------------------------

theorem utf16Length_append (a b : String) : utf16Length (a ++ b) = utf16Length a + utf16Length b := by
  simp [utf16Length]

theorem utf16Length_pos {text : String} (h : text ≠ "") : 0 < utf16Length text := by
  obtain ⟨c, rest, hlist⟩ := List.exists_cons_of_ne_nil (mt String.toList_eq_nil_iff.mp h)
  rw [utf16Length, hlist, List.map_cons, List.sum_cons]
  split <;> omega

/-- The front of a kind before a colon is a kind. -/
theorem kindIsSafe_front {front rest : String} (h : kindIsSafe (front ++ ":" ++ rest) = true) :
    kindIsSafe front = true := by
  unfold kindIsSafe at h ⊢
  rw [String.toList_append, String.toList_append] at h
  cases hfront : front.toList with
  | nil =>
    rw [hfront] at h
    revert h
    simp [kindCharacter]
  | cons c letters =>
    simp only [hfront, List.cons_append, List.length_append, List.all_append, Bool.and_eq_true,
      decide_eq_true_eq] at h ⊢
    exact ⟨⟨h.1.1, by omega⟩, h.2.1.1⟩

theorem safe_iff {kind opaqueId : String} :
    resourceInputIsSafe ⟨kind, opaqueId, .mutable⟩ = true ↔
      kindIsSafe kind = true ∧ opaqueId ≠ "" ∧ utf16Length opaqueId ≤ 512 ∧
        (opaqueId.toList.all fun c => c != '\r' && c != '\n' && c != Char.ofNat 0) = true := by
  have hpos : 0 < utf16Length opaqueId ↔ opaqueId ≠ "" :=
    ⟨fun h hempty => by subst hempty; exact absurd h (by decide), utf16Length_pos⟩
  simp only [resourceInputIsSafe, Bool.and_eq_true, decide_eq_true_eq, hpos, and_assoc]

/-- What is left of an opaque id behind a colon passes the validation, if it is not empty. -/
theorem safe_rest {kind front rest : String} (hrest : rest ≠ "")
    (h : resourceInputIsSafe ⟨kind, front ++ ":" ++ rest, .mutable⟩ = true) :
    resourceInputIsSafe ⟨kind, rest, .mutable⟩ = true := by
  obtain ⟨hkind, -, hlength, hall⟩ := safe_iff.mp h
  rw [utf16Length_append, utf16Length_append] at hlength
  rw [String.toList_append, List.all_append, Bool.and_eq_true] at hall
  exact safe_iff.mpr ⟨hkind, hrest, by omega, hall.2⟩

-- ---------------------------------------------------------------------------
-- Who shares a text
-- ---------------------------------------------------------------------------

/-- Each colon that can be taken for a joint gives another resource with the same text. -/
theorem separated_of_unique {r : ResourceIdentity} (hr : r.Admitted)
    (hunique : ∀ r', Admitted r' → r'.preimage = r.preimage → r' = r) : r.Separated where
  kind hmem := by
    obtain ⟨front, rest, hkind⟩ := List.append_of_mem hmem
    have hkind' := exists_sides hkind
    have hsafe := safe_iff.mp hr.safe
    rw [hkind'] at hsafe
    have hother : Admitted ⟨String.ofList rest ++ ":" ++ r.subscriptionId, r.step, String.ofList front,
        r.opaqueId⟩ := by
      refine ⟨fun hempty => ?_, safe_iff.mpr ⟨kindIsSafe_front hsafe.1, hsafe.2⟩⟩
      have hlist := congrArg String.toList hempty
      simp at hlist
    have heq := hunique _ hother (preimage_eq_iff.mpr ⟨rfl, by simp [body, hkind]⟩)
    have hlength := congrArg (fun r => r.kind.toList.length) heq
    simp [hkind] at hlength
  opaqueId front rest hid := by
    by_contra hrest
    have hsafe := hr.safe
    rw [hid] at hsafe
    have hother : Admitted ⟨r.subscriptionId ++ ":" ++ front, r.step, r.kind, rest⟩ := by
      refine ⟨fun hempty => ?_, safe_rest hrest hsafe⟩
      have hlist := congrArg String.toList hempty
      simp at hlist
    have heq := hunique _ hother (preimage_eq_iff.mpr ⟨rfl, by simp [body, hid]⟩)
    have hlength := congrArg (fun r => r.opaqueId.toList.length) heq
    simp [hid] at hlength
    omega
  toOpaqueId front rest hsubscription hother := by
    have heq := hunique _ hother (preimage_eq_iff.mpr ⟨rfl, by simp [body, hsubscription]⟩)
    have hlength := congrArg (fun r => r.subscriptionId.toList.length) heq
    simp [hsubscription] at hlength
  toKind front rest hsubscription hother := by
    have heq := hunique _ hother (preimage_eq_iff.mpr ⟨rfl, by simp [body, hsubscription]⟩)
    have hlength := congrArg (fun r => r.kind.toList.length) heq
    simp at hlength

theorem unique_of_separated {r r' : ResourceIdentity} (hr : r.Admitted) (hsep : r.Separated)
    (hr' : r'.Admitted) (h : r'.preimage = r.preimage) : r' = r := by
  obtain ⟨hstep, hbody⟩ := preimage_eq_iff.mp h
  have hid' : r'.opaqueId ≠ "" := (safe_iff.mp hr'.safe).2.1
  -- No admitted opaque id stands behind a colon of this one.
  have hcut (front : List Char) : r.opaqueId.toList ≠ front ++ ':' :: r'.opaqueId.toList := by
    intro heq
    exact hid' (by simpa using hsep.opaqueId _ _ (exists_sides heq))
  rcases Delimited.cut_cases hbody with ⟨hkind, hrest⟩ | ⟨c, hkind, -⟩ | ⟨c, hkind, hrest⟩
  · rcases Delimited.cut_cases hrest with ⟨hsub, hid⟩ | ⟨c, hsub, hid⟩ | ⟨c, -, hid⟩
    · cases r
      cases r'
      simp only [String.toList_inj] at hkind hsub hid
      simp only [mk.injEq]
      exact ⟨hsub, hstep, hkind, hid⟩
    · refine absurd hr' ?_
      have hno := hsep.toOpaqueId _ _ (exists_sides hsub)
      have hid' : r'.opaqueId = String.ofList c ++ ":" ++ r.opaqueId := by
        rw [← String.toList_inj, hid]
        simp
      rw [String.ofList_toList, ← hstep, ← String.toList_inj.mp hkind, ← hid'] at hno
      exact hno
    · exact absurd hid (hcut c)
  · exact absurd (hkind ▸ by simp) hsep.kind
  · rcases Delimited.cut_cases hrest with ⟨-, hid⟩ | ⟨d, -, hid⟩ | ⟨d, hsub, hid⟩
    · exact absurd hid (hcut _)
    · exact absurd (by simpa using hid) (hcut (d ++ ':' :: r'.subscriptionId.toList))
    · by_cases hd : d = []
      · subst hd
        obtain ⟨x, letters, hletters⟩ :=
          List.exists_cons_of_ne_nil (mt String.toList_eq_nil_iff.mp hr'.subscriptionId)
        rw [hletters] at hid
        obtain ⟨-, hid⟩ := List.cons.inj hid
        exact absurd hid.symm (hcut letters)
      · have hkind' : r'.kind = r.kind ++ ":" ++ String.ofList c := by
          rw [← String.toList_inj, hkind]
          simp
        refine absurd ⟨fun hempty => hd (by simpa using congrArg String.toList hempty), ?_⟩
          (hsep.toKind _ _ (exists_sides hsub))
        exact safe_iff.mpr ⟨hkind' ▸ (safe_iff.mp hr'.safe).1, (safe_iff.mp hr.safe).2⟩

end ResourceIdentity

-- ---------------------------------------------------------------------------
-- Handoff ids
-- ---------------------------------------------------------------------------

def handoffPreimage (subscriptionId : String) (activationGeneration : Nat) : String :=
  identifierPreimage "credential-handoff"
    (if activationGeneration = 0 then subscriptionId
    else subscriptionId ++ ":activation:" ++ toString activationGeneration)

theorem handoffId_eq (h : Hashing) {subscriptionId : String} (hne : subscriptionId ≠ "")
    (activationGeneration : Nat) :
    deterministicCredentialHandoffId h subscriptionId activationGeneration =
      .ok ("handoff_" ++ String.ofList
        ((h.sha256Hex (handoffPreimage subscriptionId activationGeneration)).toList.take 24)) := by
  unfold deterministicCredentialHandoffId handoffPreimage
  dsimp only
  split
  · rw [digestIdentifier_eq h hne]
    rfl
  · rw [digestIdentifier_eq h fun hempty => by simpa using congrArg String.toList hempty]
    rfl

/-- The subscription id does not end as the identity of a later activation does. -/
def Unsuffixed (subscriptionId : String) : Prop :=
  ∀ front n, front ≠ "" → 0 < n → subscriptionId ≠ front ++ ":activation:" ++ toString n

theorem identifierPreimage_inj {space value value' : String} :
    identifierPreimage space value = identifierPreimage space value' ↔ value = value' := by
  rw [← String.toList_inj, ← String.toList_inj]
  simp [identifierPreimage]

theorem handoffPreimage_unique_iff {subscriptionId : String} {activationGeneration : Nat}
    (hne : subscriptionId ≠ "") :
    (∀ subscriptionId' activationGeneration', subscriptionId' ≠ "" →
      handoffPreimage subscriptionId' activationGeneration' =
        handoffPreimage subscriptionId activationGeneration →
      subscriptionId' = subscriptionId ∧ activationGeneration' = activationGeneration) ↔
      activationGeneration = 0 ∧ Unsuffixed subscriptionId := by
  simp only [handoffPreimage, identifierPreimage_inj]
  constructor
  · intro hunique
    -- The first activation of a longer subscription id has the text of a later one.
    have hzero : activationGeneration = 0 := by
      by_contra hgen
      have hlonger := hunique (subscriptionId ++ ":activation:" ++ toString activationGeneration) 0
        (fun hempty => by simpa using congrArg String.toList hempty) (by rw [if_pos rfl, if_neg hgen])
      exact hgen hlonger.2.symm
    refine ⟨hzero, fun front n hfront hn heq => ?_⟩
    have hlater := hunique front n hfront (by rw [if_neg hn.ne', if_pos hzero, heq])
    omega
  · rintro ⟨rfl, hplain⟩ other n hother h
    rw [if_pos rfl] at h
    by_cases hn : n = 0
    · rw [if_pos hn] at h
      exact ⟨h, hn⟩
    · rw [if_neg hn] at h
      exact absurd h.symm (hplain other n hother (Nat.pos_of_ne_zero hn))

/-- What follows the text that all the preimages begin with. -/
theorem identifierPreimage_drop (space value : String) :
    (identifierPreimage space value).toList.drop 15 = space.toList ++ (":".toList ++ value.toList) := by
  simp only [identifierPreimage, String.toList_append, List.append_assoc]
  exact List.drop_left' rfl

theorem resource_ne_handoff (r : ResourceIdentity) (subscriptionId : String)
    (activationGeneration : Nat) : r.preimage ≠ handoffPreimage subscriptionId activationGeneration := by
  intro h
  have hspace := congrArg (fun text : String => (text.toList.drop 15).head?) h
  have hresource : "resource:".toList.head? = some 'r' := rfl
  have hhandoff : "credential-handoff".toList.head? = some 'c' := rfl
  simp only [ResourceIdentity.preimage, handoffPreimage, identifierPreimage_drop, List.head?_append,
    String.toList_append, hresource, hhandoff, Option.some_or] at hspace
  exact absurd (Option.some.inj hspace) (by decide)

-- ---------------------------------------------------------------------------
-- Which arguments have a text of their own
-- ---------------------------------------------------------------------------

/-- A text of their own have exactly the resources whose parts cannot be cut
otherwise, and the first activations of the subscriptions that do not look like a
later one. -/
theorem preimages_own_iff (r : ResourceIdentity) (subscriptionId : String)
    (activationGeneration : Nat) :
    (r.Admitted →
      ((∀ r' : ResourceIdentity, r'.Admitted → r'.preimage = r.preimage → r' = r) ↔ r.Separated)) ∧
    (subscriptionId ≠ "" →
      ((∀ subscriptionId' activationGeneration', subscriptionId' ≠ "" →
        handoffPreimage subscriptionId' activationGeneration' =
          handoffPreimage subscriptionId activationGeneration →
        subscriptionId' = subscriptionId ∧ activationGeneration' = activationGeneration) ↔
        activationGeneration = 0 ∧ Unsuffixed subscriptionId)) ∧
    r.preimage ≠ handoffPreimage subscriptionId activationGeneration :=
  ⟨fun hr => ⟨ResourceIdentity.separated_of_unique hr, fun hsep _ hr' h =>
    ResourceIdentity.unique_of_separated hr hsep hr' h⟩,
   fun hne => handoffPreimage_unique_iff hne, resource_ne_handoff r subscriptionId activationGeneration⟩

/-- Two resources of one subscription share a text, and so do a later activation and
the first one of another subscription. -/
theorem preimages_shared :
    (¬ ∀ r r' : ResourceIdentity, r.Admitted → r'.Admitted → r'.preimage = r.preimage → r' = r) ∧
    ¬ ∀ subscriptionId activationGeneration subscriptionId' activationGeneration',
      subscriptionId ≠ "" → subscriptionId' ≠ "" →
      handoffPreimage subscriptionId' activationGeneration' =
        handoffPreimage subscriptionId activationGeneration →
      subscriptionId' = subscriptionId ∧ activationGeneration' = activationGeneration := by
  constructor
  · intro h
    have heq := h ⟨"sub_1", .storage_namespace, "bucket", "sub_1:evidence"⟩
      ⟨"sub_1", .storage_namespace, "bucket:sub_1", "evidence"⟩
      ⟨by decide, by decide⟩ ⟨by decide, by decide⟩ (by decide)
    exact absurd (congrArg ResourceIdentity.kind heq) (by decide)
  · intro h
    have heq := h "sub_1" 1 "sub_1:activation:1" 0 (by decide) (by decide) (by decide)
    cases heq.2

end EsigSuite.Provisioning
