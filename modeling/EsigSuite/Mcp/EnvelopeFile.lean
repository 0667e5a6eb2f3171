import EsigSuite.Mcp.EnvelopeStores
import EsigSuite.Lib.Table
import Mathlib.Data.List.Chain

/-!
# What every write keeps of the envelope file

`Chain` is the order of the writes of one envelope, `Tokens` what is known of
the tokens that no longer sign. Both are kept by adding a row and by replacing
the row that was compared.
-/

namespace EsigSuite

open Lib

variable {μ ι : Type}

-- ---------------------------------------------------------------------------
-- Tokens
-- ---------------------------------------------------------------------------

theorem TokensKept.refl (rows : List (Envelope μ)) : TokensKept rows rows :=
  fun _ e he => ⟨e, he, rfl, id⟩

theorem TokensKept.append (rows : List (Envelope μ)) (e : Envelope μ) :
    TokensKept rows (rows ++ [e]) := by
  intro tokenHash found hfound
  refine ⟨found, ?_, rfl, id⟩
  rw [rowOf] at hfound
  rw [rowOf, List.find?_append, hfound, Option.some_or]

namespace Envelope

theorem findIdx?_modify {α : Type} {p : α → Bool} {f : α → α} (hf : ∀ x, p (f x) = p x)
    (xs : List α) (i : Nat) : (xs.modify i f).findIdx? p = xs.findIdx? p := by
  induction xs generalizing i with
  | nil => simp
  | cons x rest ih =>
    cases i with
    | zero => simp [List.findIdx?_cons, hf]
    | succ i => simp [List.findIdx?_cons, ih]

/-- The signer of a token after signer `i` is edited. -/
theorem signerOf_modify {e e' : Envelope μ} {f : EnvelopeSigner → EnvelopeSigner}
    (hsigners : e'.signers = e.signers.modify i f) (hf : ∀ s, (f s).tokenHash = s.tokenHash)
    (tokenHash : String) :
    e'.signerOf tokenHash =
      (e.signerOf tokenHash).map fun r => (r.1, if i = r.1 then f r.2 else r.2) := by
  have hidx : e'.signers.findIdx? (·.tokenHash == tokenHash) =
      e.signers.findIdx? (·.tokenHash == tokenHash) := by
    rw [hsigners]
    exact findIdx?_modify (fun s => by rw [hf]) _ _
  rw [signerOf, signerOf, hidx, hsigners]
  simp only [List.getElem?_modify]
  cases e.signers.findIdx? (·.tokenHash == tokenHash) with
  | none => rfl
  | some j =>
    simp only [Option.bind_eq_bind, Option.bind_some, Option.pure_def]
    cases e.signers[j]? with
    | none => rfl
    | some s => rfl

theorem any_modify {e e' : Envelope μ} {f : EnvelopeSigner → EnvelopeSigner}
    (hsigners : e'.signers = e.signers.modify i f) (hf : ∀ s, (f s).tokenHash = s.tokenHash)
    (tokenHash : String) :
    e'.signers.any (·.tokenHash == tokenHash) = e.signers.any (·.tokenHash == tokenHash) := by
  rw [← List.findIdx?_isSome, ← List.findIdx?_isSome, hsigners]
  exact congrArg Option.isSome (findIdx?_modify (fun s => by rw [hf]) _ _)

theorem usable_of_not_live {e : Envelope μ} (h : e.live = false) (tokenHash : String) :
    e.usable tokenHash = false := by
  rw [usable, h, Bool.false_and]

theorem signed_live (e : Envelope μ) (i : Nat) (image : String) (signedAt completedAt : Time)
    (tokenHash : String) (hlive : e.live = true)
    (h : (e.signed i image signedAt completedAt).usable tokenHash = true) :
    e.usable tokenHash = true := by
  rw [usable, Bool.and_eq_true, signerOf_modify (signed_signers e i image signedAt completedAt)
    (fun _ => rfl)] at h
  rw [usable, hlive, Bool.true_and]
  cases hsigner : e.signerOf tokenHash with
  | none => simp [hsigner] at h
  | some r =>
    have hopen := h.2
    rw [hsigner, Option.map_some, Option.any_some] at hopen
    rw [Option.any_some]
    dsimp only at hopen
    split at hopen
    · cases hopen
    · exact hopen

theorem usable_of_signerOf {e : Envelope μ} {tokenHash : String} (hlive : e.live = true)
    (hsigner : e.signerOf tokenHash = some (i, signer)) (hopen : signer.status ≠ .signed) :
    e.usable tokenHash = true := by
  rw [usable, hlive, hsigner]
  simp [hopen]

/-- The token that signed has had its use. -/
theorem signed_unusable {e : Envelope μ} {tokenHash : String}
    (hsigner : e.signerOf tokenHash = some (i, signer)) (image : String)
    (signedAt completedAt : Time) :
    (e.signed i image signedAt completedAt).usable tokenHash = false := by
  rw [usable, signerOf_modify (signed_signers e i image signedAt completedAt) (fun _ => rfl),
    hsigner]
  simp [signSigner]

end Envelope

/-- What every edit of the envelope functions leaves alone. -/
structure SameKeys (e e' : Envelope μ) : Prop where
  id : e'.id = e.id
  tenantId : e'.tenantId = e.tenantId
  mcpRev : e'.mcpRev = e.mcpRev
  tokens : ∀ tokenHash,
    e'.signers.any (·.tokenHash == tokenHash) = e.signers.any (·.tokenHash == tokenHash)
  usable : ∀ tokenHash, e'.usable tokenHash = true → e.usable tokenHash = true

theorem Envelope.signed_fields (e : Envelope μ) (i : Nat) (image : String)
    (signedAt completedAt : Time) :
    (e.signed i image signedAt completedAt).id = e.id ∧
      (e.signed i image signedAt completedAt).tenantId = e.tenantId ∧
      (e.signed i image signedAt completedAt).mcpRev = e.mcpRev := by
  unfold Envelope.signed
  dsimp only
  split <;> exact ⟨rfl, rfl, rfl⟩

theorem Change.sameKeys {e e' : Envelope μ} (h : Change e e') : SameKeys e e' := by
  cases h with
  | expire =>
    refine ⟨rfl, rfl, rfl, fun _ => rfl, fun tokenHash h => ?_⟩
    rw [Envelope.usable_of_not_live rfl] at h
    cases h
  | @sign i _ _ hlive hsigner hopen hturn image signedAt completedAt =>
    obtain ⟨hid, htenant, hrev⟩ := e.signed_fields i image signedAt completedAt
    refine ⟨hid, htenant, hrev, ?_, ?_⟩
    · exact Envelope.any_modify (Envelope.signed_signers e i image signedAt completedAt)
        fun _ => rfl
    · exact fun tokenHash => e.signed_live i image signedAt completedAt tokenHash hlive
  | decline =>
    refine ⟨rfl, rfl, rfl, ?_, fun tokenHash h => ?_⟩
    · exact Envelope.any_modify (Envelope.declined_signers e _ _ _ _) fun _ => rfl
    · rw [Envelope.usable_of_not_live rfl] at h
      cases h
  | void =>
    refine ⟨rfl, rfl, rfl, fun _ => rfl, fun tokenHash h => ?_⟩
    rw [Envelope.usable_of_not_live rfl] at h
    cases h

namespace EnvelopeFile

theorem setRev_usable (e : Envelope μ) (rev : Nat) (tokenHash : String) :
    (setRev e rev).usable tokenHash = e.usable tokenHash := rfl

/-- Replacing a row by one with the same tokens, none usable again. -/
theorem TokensKept.set {rows : List (Envelope μ)} {i : Nat} {e e' : Envelope μ}
    (hi : rows[i]? = some e) (hid : e'.id = e.id)
    (htokens : ∀ tokenHash,
      e'.signers.any (·.tokenHash == tokenHash) = e.signers.any (·.tokenHash == tokenHash))
    (husable : ∀ tokenHash, e'.usable tokenHash = true → e.usable tokenHash = true) :
    TokensKept rows (rows.set i e') := by
  intro tokenHash found hfound
  rcases find?_set_cases (p := fun e => e.signers.any (·.tokenHash == tokenHash)) hi
    (htokens tokenHash) with h | ⟨hold, hnew⟩
  · exact ⟨found, h.trans hfound, rfl, id⟩
  · rw [rowOf, hold] at hfound
    cases hfound
    exact ⟨e', hnew, hid, husable tokenHash⟩

-- ---------------------------------------------------------------------------
-- The invariant
-- ---------------------------------------------------------------------------

def writesOf (history : List (Write μ)) (id : String) : List (Write μ) :=
  history.filter (·.row.id == id)

/-- A write of the envelope that was read as the one before left it. -/
structure Follows (w w' : Write μ) : Prop where
  read : w'.readRev = some (getRev w.row)
  next : getRev w'.row = getRev w.row + 1

/-- The writes of each envelope are one chain from its first row on, and the
file holds the last. -/
structure Chain (s : Shared μ ι) : Prop where
  first : ∀ id w, (writesOf s.history id).head? = some w → w.readRev = none
  follows : ∀ id, (writesOf s.history id).IsChain Follows
  stored : ∀ id, s.rows.find? (·.id == id) = (writesOf s.history id).getLast?.map (·.row)

/-- A token with a grantee, or one that led to a result, is used up. -/
structure Tokens (s : Shared μ ι) : Prop where
  closed : ∀ tokenHash i, s.grantee tokenHash = some i →
    ∃ e, rowOf s.rows tokenHash = some e ∧ e.usable tokenHash = false
  granted : ∀ tokenHash ∈ s.acted, (s.grantee tokenHash).isSome
  once : s.acted.Nodup

structure Inv (s : Shared μ ι) : Prop where
  mutex : s.mutex.Ok
  ids : (s.rows.map (·.id)).Nodup
  chain : Chain s
  tokens : ¬ s.tampered → Tokens s

theorem writesOf_append (history : List (Write μ)) (w : Write μ) (id : String) :
    writesOf (history ++ [w]) id =
      if w.row.id == id then writesOf history id ++ [w] else writesOf history id := by
  rw [writesOf, writesOf, List.filter_append, List.filter_singleton]
  cases w.row.id == id <;> simp

variable {s : Shared μ ι}

/-- Two writes of one revision of an envelope are the same. -/
theorem Chain.eq_of_rev (h : Chain s) {w w' : Write μ} (hw : w ∈ s.history) (hw' : w' ∈ s.history)
    (hid : w.row.id = w'.row.id) (hrev : getRev w.row = getRev w'.row) : w = w' := by
  have hmem : ∀ {v : Write μ}, v ∈ s.history → v.row.id = w'.row.id →
      v ∈ writesOf s.history w'.row.id := fun hv hid =>
    List.mem_filter.mpr ⟨hv, beq_iff_eq.mpr hid⟩
  have hincreasing : (writesOf s.history w'.row.id).Pairwise
      fun v v' => getRev v.row ≠ getRev v'.row := by
    have hchain : (writesOf s.history w'.row.id).IsChain
        fun v v' => getRev v.row < getRev v'.row :=
      (h.follows _).imp fun v v' hf => by rw [hf.next]; exact Nat.lt_succ_self _
    have : IsTrans (Write μ) fun v v' => getRev v.row < getRev v'.row :=
      ⟨fun _ _ _ h h' => Nat.lt_trans h h'⟩
    exact (List.isChain_iff_pairwise.mp hchain).imp Nat.ne_of_lt
  have : Std.Symm fun v v' : Write μ => getRev v.row ≠ getRev v'.row :=
    ⟨fun _ _ h => h.symm⟩
  by_contra hne
  exact hincreasing.forall (hmem hw hid) (hmem hw' rfl) hne hrev

/-- The stored row is the write of its revision. -/
theorem Inv.stored_write (h : Inv s) {e : Envelope μ} (he : e ∈ s.rows) :
    ∃ w ∈ s.history, w.row = e ∧ (writesOf s.history e.id).getLast? = some w := by
  have hfind := find?_key h.ids he
  rw [h.chain.stored e.id] at hfind
  obtain ⟨w, hw, rfl⟩ := Option.map_eq_some_iff.mp hfind
  exact ⟨w, (List.mem_filter.mp (List.mem_of_getLast? hw)).1, rfl, hw⟩

theorem Inv.eq_of_rev (h : Inv s) {e e' : Envelope μ} (he : e ∈ s.rows)
    (he' : ∃ w ∈ s.history, w.row = e') (hid : e.id = e'.id) (hrev : getRev e = getRev e') :
    e = e' := by
  obtain ⟨w, hw, rfl, -⟩ := h.stored_write he
  obtain ⟨w', hw', rfl⟩ := he'
  rw [h.chain.eq_of_rev hw hw' hid hrev]

-- ---------------------------------------------------------------------------
-- Writes
-- ---------------------------------------------------------------------------

/-- One more write of an envelope. -/
theorem Chain.write (h : Chain s) {who : ι} {rows : List (Envelope μ)} {w : Write μ}
    (hfirst : writesOf s.history w.row.id = [] → w.readRev = none)
    (hlast : ∀ v, (writesOf s.history w.row.id).getLast? = some v → Follows v w)
    (hrows : ∀ id, rows.find? (·.id == id) =
      if w.row.id == id then some w.row else s.rows.find? (·.id == id)) :
    Chain (s.renamed who rows w) where
  first id v hv := by
    rw [Shared.renamed, writesOf_append] at hv
    split at hv
    next hid =>
      rw [beq_iff_eq] at hid
      subst hid
      cases hws : writesOf s.history w.row.id with
      | nil =>
        rw [hws] at hv
        cases hv
        exact hfirst hws
      | cons u us =>
        refine h.first w.row.id v ?_
        rw [hws] at hv ⊢
        exact hv
    next => exact h.first id v hv
  follows id := by
    rw [Shared.renamed, writesOf_append]
    split
    next hid =>
      rw [beq_iff_eq] at hid
      subst hid
      refine (h.follows _).append (List.isChain_singleton _) ?_
      intro v hv w' hw'
      cases hw'
      exact hlast v hv
    next => exact h.follows id
  stored id := by
    change rows.find? (·.id == id) = _
    rw [hrows, Shared.renamed, writesOf_append]
    split
    next hid => simp
    next => exact h.stored id

theorem Tokens.write (h : Tokens s) {who : ι} {rows : List (Envelope μ)} {w : Write μ}
    (hkept : TokensKept s.rows rows) : Tokens (s.renamed who rows w) where
  closed tokenHash i hi := by
    change (if usableIn s.rows tokenHash && !usableIn rows tokenHash then some who
      else s.grantee tokenHash) = some i at hi
    change ∃ e, rowOf rows tokenHash = some e ∧ e.usable tokenHash = false
    split at hi
    next hused =>
      rw [Bool.and_eq_true, Bool.not_eq_true'] at hused
      obtain ⟨hbefore, hafter⟩ := hused
      obtain ⟨e, he⟩ : ∃ e, rowOf s.rows tokenHash = some e := by
        cases he : rowOf s.rows tokenHash with
        | some e => exact ⟨e, rfl⟩
        | none => simp [usableIn, he] at hbefore
      obtain ⟨e', he', -⟩ := hkept tokenHash e he
      rw [usableIn, he', Option.any_some] at hafter
      exact ⟨e', he', hafter⟩
    next =>
      obtain ⟨e, he, hclosed⟩ := h.closed tokenHash i hi
      obtain ⟨e', he', -, husable⟩ := hkept tokenHash e he
      refine ⟨e', he', ?_⟩
      by_contra hopen
      rw [Bool.not_eq_false] at hopen
      rw [husable hopen] at hclosed
      cases hclosed
  granted tokenHash hacted := by
    have := h.granted tokenHash hacted
    simp only [Shared.renamed]
    split
    · rfl
    · exact this
  once := h.once

/-- A grant is not passed on. -/
theorem Tokens.grant_kept (h : Tokens s) {who j : ι} {rows : List (Envelope μ)} {w : Write μ}
    {tokenHash : String} (hj : s.grantee tokenHash = some j) :
    (s.renamed who rows w).grantee tokenHash = some j := by
  obtain ⟨e, he, hclosed⟩ := h.closed tokenHash j hj
  simp only [Shared.renamed, usableIn, he, Option.any_some, hclosed, Bool.false_and]
  exact hj

/-- Adding a row with a new id. -/
theorem Inv.insert (h : Inv s) (who : ι) {e : Envelope μ} (hnew : e.id ∉ s.rows.map (·.id)) :
    Inv (s.renamed who (s.rows ++ [e]) ⟨e, none, false⟩) where
  mutex := h.mutex
  ids := by
    simp only [Shared.renamed, List.map_append, List.map_singleton]
    exact h.ids.append (List.nodup_singleton _) (by simpa using hnew)
  chain := by
    have hnone : s.rows.find? (·.id == e.id) = none := find?_key_eq_none.mpr hnew
    refine h.chain.write (fun _ => rfl) ?_ ?_
    · intro v hv
      have := h.chain.stored e.id
      rw [hnone, hv] at this
      cases this
    · intro id
      rw [List.find?_append, List.find?_singleton]
      split
      next hid =>
        rw [beq_iff_eq] at hid
        subst hid
        rw [hnone, Option.none_or]
      next => rw [Option.or_none]
  tokens hkept := by
    refine (h.tokens fun ht => hkept (.inl ht)).write (.append _ _)

/-- Replacing the row that the writer had read. -/
theorem Inv.update (h : Inv s) (who : ι) {raw : Bool} {i : Nat} {fresh e : Envelope μ}
    (hi : s.rows[i]? = some fresh) (hid : e.id = fresh.id) (hrev : getRev e = getRev fresh + 1)
    (hkept : raw = false → TokensKept s.rows (s.rows.set i e)) :
    Inv (s.renamed who (s.rows.set i e) ⟨e, some (getRev fresh), raw⟩) where
  mutex := h.mutex
  ids := by
    change ((s.rows.set i e).map (·.id)).Nodup
    rw [map_set_same hi hid]
    exact h.ids
  chain := by
    obtain ⟨w, -, rfl, hlast⟩ := h.stored_write (List.mem_of_getElem? hi)
    rw [← hid] at hlast
    refine h.chain.write (fun hnil => ?_) (fun v hv => ?_)
      fun id => find?_set_key h.ids hi hid id
    · change writesOf s.history e.id = [] at hnil
      rw [hnil] at hlast
      cases hlast
    · change (writesOf s.history e.id).getLast? = some v at hv
      rw [hlast] at hv
      cases hv
      exact ⟨rfl, hrev⟩
  tokens hfair := by
    have hfair' : ¬ s.tampered := fun ht => hfair (.inl ht)
    refine (h.tokens hfair').write ?_
    cases raw with
    | false => exact hkept rfl
    | true =>
      by_contra hbroken
      exact hfair (.inr ⟨rfl, hbroken⟩)

end EnvelopeFile

end EsigSuite
