import EsigSuite.Mcp.IdentityRuns

/-!
# The rules of the identity gate

What each call may rely on while the others run: every row only evolves, and
what was read is current as long as its revision is. The store of the service
meets `StoreContract` under these rules.
-/

namespace EsigSuite.IdentityGate

open Lib EnvelopeFile

variable {ρ : Type} [Inhabited ρ]

-- ---------------------------------------------------------------------------
-- The protocol
-- ---------------------------------------------------------------------------

/-- A `sign` whose gate had not found the signer ready records no signature
under a level. -/
def GateInTurn : Op ρ → Rows ρ → Prop
  | .update (some false) e, _ => e.status = .expired ∨ minLevelOf e = .none
  | _, _ => True

structure Inv (start s : Rows ρ) : Prop where
  ids : (s.map (·.id)).Nodup
  evolved : List.Forall₂ Evolves start s

def protocol (start : Rows ρ) : Protocol (Op ρ) Res (Rows ρ) where
  exec := Guarded exec GateInTurn
  inv := Inv start
  rely := List.Forall₂ Evolves
  guar := List.Forall₂ Evolves

variable {start s s' : Rows ρ} {e e' : Envelope (McpMetadata ρ)}

theorem compatible {ι : Type} (start : Rows ρ) : Protocol.Compatible (Guarded exec GateInTurn)
    (Inv start) fun _ : ι => protocol start where
  exec_eq _ := rfl
  inv_eq _ := rfl
  guar_rely _ _ _ _ _ _ _ h := h

theorem evolves_refl (s : Rows ρ) : List.Forall₂ Evolves s s :=
  List.forall₂_same.mpr fun e _ => .refl e

/-- A compare-and-swap by an edit of the row. -/
theorem Inv.set (h : Inv start s) {i : Nat} (hi : s[i]? = some e) (hedit : Edit e e') :
    Inv start (s.set i (setRev e' (getRev e' + 1))) ∧
      List.Forall₂ Evolves s (s.set i (setRev e' (getRev e' + 1))) := by
  have hstep : List.Forall₂ Evolves s (s.set i (setRev e' (getRev e' + 1))) :=
    forall₂_set .refl hi hedit.evolves
  refine ⟨⟨?_, ?_⟩, hstep⟩
  · rw [map_set_same hi (show (setRev e' _).id = e.id from hedit.id)]
    exact h.ids
  · exact forall₂_trans (R := Evolves) (fun _ _ _ => Evolves.trans) h.evolved hstep

-- ---------------------------------------------------------------------------
-- What lasts
-- ---------------------------------------------------------------------------

def Closed (F : Envelope (McpMetadata ρ) → Prop) : Prop := ∀ e e', Evolves e e' → F e → F e'

/-- The rows of an id. -/
def AllOf (id : String) (F : Envelope (McpMetadata ρ) → Prop) (s : Rows ρ) : Prop :=
  ∀ e ∈ s, e.id = id → F e

/-- The row a token leads to. -/
def OfToken (tokenHash : String) (F : Envelope (McpMetadata ρ) → Prop) (s : Rows ρ) : Prop :=
  ∀ e, rowOf s tokenHash = some e → F e

theorem kept_of {P : Rows ρ → Prop} (h : ∀ s s', List.Forall₂ Evolves s s' → P s → P s') :
    (protocol start).Kept P :=
  ⟨fun s s' _ _ => h s s', fun s s' _ _ => h s s'⟩

theorem allOf_kept {F : Envelope (McpMetadata ρ) → Prop} (hF : Closed F) (id : String) :
    (protocol start).Kept (AllOf id F) := by
  refine kept_of fun s s' hstep h e he hid => ?_
  obtain ⟨d, hd, hevolves⟩ := exists_of_mem_forall₂ hstep he
  exact hF d e hevolves (h d hd (hevolves.id ▸ hid))

theorem ofToken_kept {F : Envelope (McpMetadata ρ) → Prop} (hF : Closed F) (tokenHash : String) :
    (protocol start).Kept (OfToken tokenHash F) := by
  refine kept_of fun s s' hstep h e he => ?_
  obtain ⟨d, hd, hevolves⟩ :=
    find?_forall₂ hstep (fun _ _ h => hasToken_congr h.keys tokenHash) he
  exact hF d e hevolves (h d hd)

theorem closed_evolves (e : Envelope (McpMetadata ρ)) : Closed (Evolves e) :=
  fun _ _ hstep h => h.trans hstep

theorem closed_good (signerId : String) : Closed (ρ := ρ) (Good · signerId) :=
  fun _ _ hstep h => hstep.good signerId h

-- ---------------------------------------------------------------------------
-- The store
-- ---------------------------------------------------------------------------

section
variable (start : Rows ρ) (server : Server ρ)

/-- The outside answers and changes nothing. -/
theorem idle (op : Op ρ) (hop : ∀ s r s', exec op s r s' → s' = s) {P : Rows ρ → Prop}
    (hP : (protocol start).Stable P) :
    (protocol start).Holds (Prog.perform op) P fun _ => P := by
  refine .idle (fun s r s' hexec => ?_) hP
  exact ⟨hop s r s' hexec.1, evolves_refl s⟩

theorem now_quiet : (protocol start).Quiet server.env.now fun _ => True :=
  .lift fun _ => idle start .now fun _ _ _ h => h

theorem random_quiet : (protocol start).Quiet server.env.randomToken fun _ => True :=
  .lift fun _ => idle start .random fun _ _ _ h => h

theorem audit_quiet : (protocol start).Quiet server.deps.audit fun _ => True :=
  .mk fun _ => idle start .audit fun _ _ _ h => h

/-- What was read has only evolved since. -/
def Read (l : Lookup) (e : Envelope (McpMetadata ρ)) (s : Rows ρ) : Prop :=
  AllOf e.id (Evolves e) s ∧ ∀ tokenHash, l = .token tokenHash → OfToken tokenHash (Evolves e) s

def Stored : Lookup → Envelope (McpMetadata ρ) → Rows ρ → Prop
  | .id _ id, e, s => e ∈ s ∧ e.id = id
  | .token tokenHash, e, s => rowOf s tokenHash = some e

theorem read_kept (l : Lookup) (e : Envelope (McpMetadata ρ)) :
    (protocol start).Kept (Read l e) := by
  refine (allOf_kept (closed_evolves e) e.id).and ⟨?_, ?_⟩
  · intro s s' hs hs' hstep h tokenHash hl
    exact (ofToken_kept (closed_evolves e) tokenHash).1 s s' hs hs' hstep (h tokenHash hl)
  · intro s s' hs hs' hstep h tokenHash hl
    exact (ofToken_kept (closed_evolves e) tokenHash).2 s s' hs hs' hstep (h tokenHash hl)

theorem Inv.allOf (h : Inv start s) (he : e ∈ s) : AllOf e.id (Evolves e) s := by
  intro d hd hid
  rw [eq_of_key h.ids hd he hid]
  exact .refl e

/-- What `GateInTurn` lets an update write. -/
def Allowed (gate : Option Bool) (e : Envelope (McpMetadata ρ)) : Prop :=
  gate = some false → e.status = .expired ∨ minLevelOf e = .none

def contract (gate : Option Bool) : StoreContract (protocol start) (store gate) server.env where
  Stored := Stored
  Read := Read
  Changed e e' := Allowed gate e' → Edit e e'
  Wrote _ _ e s := AllOf e.id (Evolves (setRev e (getRev e + 1))) s
  read_stable l e := (read_kept start l e).1
  now P hP := (now_quiet start server P hP).mono (fun _ _ h => h) (fun _ _ _ h => h.2)
    fun _ _ _ h => h
  findByTokenHash tokenHash P hP := by
    refine Protocol.Holds.perform ?_ fun r => ?_
    · rintro _ r s hinv h ⟨⟨rfl, rfl | ⟨t, rfl⟩⟩, -⟩
      · refine ⟨hinv, evolves_refl s, h, fun e he => ⟨⟨s, hinv, h, he⟩, ?_, ?_⟩⟩
        · exact hinv.allOf start (List.mem_of_find?_eq_some he)
        · rintro _ ⟨⟩ d hd
          rw [he] at hd
          cases hd
          exact .refl e
      · exact ⟨hinv, evolves_refl s, h⟩
    · rcases r with t | r
      · exact hP
      · exact hP.and fun s s' hs hs' hstep h e he =>
          ⟨(h e he).1, (read_kept start _ e).1 s s' hs hs' hstep (h e he).2⟩
  findById tenantId id P hP := by
    refine Protocol.Holds.perform ?_ fun r => ?_
    · rintro _ r s hinv h ⟨⟨rfl, rfl | ⟨t, rfl⟩⟩, -⟩
      · refine ⟨hinv, evolves_refl s, h, fun e he => ?_⟩
        have hmem := List.mem_of_find?_eq_some he
        have hkey := List.find?_some he
        simp only [Bool.and_eq_true, beq_iff_eq] at hkey
        exact ⟨⟨s, hinv, h, hmem, hkey.2⟩, hinv.allOf start hmem, nofun⟩
      · exact ⟨hinv, evolves_refl s, h⟩
    · rcases r with t | r
      · exact hP
      · exact hP.and fun s s' hs hs' hstep h e he =>
          ⟨(h e he).1, (read_kept start _ e).1 s s' hs hs' hstep (h e he).2⟩
  update l read e P hP hchange := by
    have hwrote : (protocol start).Kept (AllOf e.id (Evolves (setRev e (getRev e + 1)))) :=
      allOf_kept (closed_evolves _) _
    refine Protocol.Holds.perform ?_ fun r => ?_
    · rintro s r s' hinv ⟨hread, h⟩ ⟨⟨⟨i, cur, hi, hid, -, hrev, rfl⟩, rfl⟩ | ⟨rfl, t, rfl⟩, hgate⟩
      · have hedit : Edit read e := hchange fun hclosed => by
          subst hclosed
          exact hgate
        have hcur : cur = read := by
          have hevolves := hread.1 cur (List.mem_of_getElem? hi) (hid.trans hedit.id)
          refine hevolves.eq_of_rev ?_
          rw [hrev, getRev, getRev, hedit.mcpRev]
        subst hcur
        obtain ⟨hinv', hstep⟩ := hinv.set hi hedit
        have hlt := (List.getElem?_eq_some_iff.mp hi).1
        exact ⟨hinv', hstep, hinv'.allOf start (List.mem_set hlt _), hP.2 _ _ hinv hinv' hstep h⟩
      · exact ⟨hinv, evolves_refl _, h⟩
    · rcases r with t | r
      · exact hP.1
      · exact hwrote.1.and hP.1

end

end EsigSuite.IdentityGate
