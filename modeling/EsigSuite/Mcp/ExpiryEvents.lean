import EsigSuite.Mcp.EventLog
import EsigSuite.Mcp.ServiceThreads

/-!
# At most one expiry in a log

The mark `expiredEmittedAt` is written together with `envelope.expired` and over
none, and no write takes it back. An envelope that is completed or voided is
never live or expired again.
-/

namespace EsigSuite.Mcp

open Lib
open EnvelopeFile (getRev setRev)

variable {ι : Type}

-- ---------------------------------------------------------------------------
-- Rewrites
-- ---------------------------------------------------------------------------

theorem change_emitted {e e' : McpEnvelope} (h : Change e e') :
    expiredEmittedAt e' = expiredEmittedAt e := by
  cases h with
  | expire => rfl
  | sign hlive hsigner hopen hturn image signedAt completedAt =>
    unfold Envelope.signed
    dsimp only
    split <;> rfl
  | decline => rfl
  | void => rfl

/-- No write takes the mark away. -/
theorem Rewrite.emitted {server : Server} {e e' : McpEnvelope} {purpose : Purpose}
    (h : Rewrite server e e' purpose) (hmarked : (expiredEmittedAt e).isSome) :
    (expiredEmittedAt e').isSome := by
  cases h with
  | change hlive h hpurpose => rwa [change_emitted h]
  | void => exact hmarked
  | aside h hpurpose => rwa [h.emitted]
  | claim => exact hmarked
  | rollback => exact hmarked
  | persist hsent hpending hemitted links h => rwa [h.emitted]
  | erase left signerId h => rw [h.emitted]; cases signerId <;> exact hmarked
  | purge h => rwa [h.emitted]
  | expire now hcan hemitted h => rw [h.emitted]; rfl

theorem Closed.not_live {e : McpEnvelope} (h : Closed e) : ¬ (e.live = true ∨ e.status = .expired) := by
  rintro (hlive | hexpired)
  · rcases Envelope.live_iff.mp hlive with hs | hs <;> rcases h with h | h <;>
      exact absurd (hs.symm.trans h) (by decide)
  · rcases h with h | h <;> exact absurd (hexpired.symm.trans h) (by decide)

/-- What is completed or voided stays so. -/
theorem Rewrite.closed {server : Server} {e e' : McpEnvelope} {purpose : Purpose}
    (h : Rewrite server e e' purpose) (hclosed : Closed e) : Closed e' := by
  have hstatus : ∀ e'' : McpEnvelope, e''.status = e.status → Closed e'' := fun e'' hs => by
    rwa [Closed, hs]
  cases h with
  | change hlive h hpurpose => exact absurd (.inl hlive) hclosed.not_live
  | void hopen voidedAt => exact .inr rfl
  | aside h hpurpose => exact hstatus _ h.status
  | claim => exact hstatus _ rfl
  | rollback => exact hstatus _ rfl
  | persist hsent hpending hemitted links h => exact hstatus _ h.status
  | erase left signerId h => exact hstatus _ (by cases signerId <;> exact h.status)
  | purge h => exact hstatus _ h.status
  | expire now hcan hemitted h => exact absurd hcan hclosed.not_live

-- ---------------------------------------------------------------------------
-- Expiries
-- ---------------------------------------------------------------------------

/-- The expiries that the log receives with a write. -/
def expiriesOf (w : Write ι) : List EsigEvent := (newEvents w).filter (·.type = .envelope_expired)

/-- The expiries that the log of an envelope has received. -/
def expiries (envelopeId : String) (s : World ι) : List EsigEvent :=
  (s.history.filter (·.new.id = envelopeId)).flatMap expiriesOf

theorem expiries_push (envelopeId : String) (s : World ι) (rows : List McpEnvelope) (w : Write ι) :
    expiries envelopeId { s with rows, history := s.history ++ [w] } =
      expiries envelopeId s ++ if w.new.id = envelopeId then expiriesOf w else [] := by
  simp only [expiries, List.filter_append, List.flatMap_append]
  congr 1
  by_cases hid : w.new.id = envelopeId <;> simp [hid]

/-- A log receives no expiry, or the envelope had none and could expire. -/
theorem expiriesOf_cases {server : Server} {t : Track (Duties ι)} {tag : Tag ι}
    {cur e : McpEnvelope} (hunused : ∀ event ∈ eventsOf cur, event.id ∉ t.drawn)
    (hwrites : Writes server t tag cur e) (rev : Nat) :
    expiriesOf (⟨tag, cur, setRev e rev⟩ : Write ι) = [] ∨
      ((∃ event, expiriesOf (⟨tag, cur, setRev e rev⟩ : Write ι) = [event]) ∧
        expiredEmittedAt cur = none ∧ (expiredEmittedAt e).isSome ∧
        (cur.live = true ∨ cur.status = .expired)) := by
  have hnoted := hwrites.noted
  unfold Noted at hnoted
  split at hnoted
  next =>
    obtain ⟨event, hdrawn, -, hlog, hexpired⟩ := hnoted
    have hnew : newEvents (⟨tag, cur, setRev e rev⟩ : Write ι) = [event] :=
      newEvents_append hlog fun hmem => hunused event hmem hdrawn
    by_cases htype : event.type = .envelope_expired
    · obtain ⟨hnone, hsome, hcan⟩ := hexpired htype
      refine .inr ⟨⟨event, ?_⟩, hnone, Option.isSome_iff_ne_none.mpr hsome, hcan⟩
      rw [expiriesOf, hnew]
      simp [htype]
    · refine .inl ?_
      rw [expiriesOf, hnew]
      simp [htype]
  next =>
    refine .inl ?_
    rw [expiriesOf, newEvents_same hnoted]
    rfl

/-- The mark, as a count. -/
def marks (e : McpEnvelope) : Nat := if (expiredEmittedAt e).isSome then 1 else 0

/-- From some rows on. -/
structure Once (start s : World ι) : Prop where
  kept : ∀ e ∈ start.rows, ∃ row ∈ s.rows, row.id = e.id
  known : ∀ w ∈ s.history, ∃ row ∈ s.rows, row.id = w.new.id
  count : ∀ row ∈ s.rows, (expiries row.id s).length ≤ marks row
  none : ∀ e ∈ start.rows, marks e = 1 → expiries e.id s = [] ∧
    ∀ row ∈ s.rows, row.id = e.id → marks row = 1
  closed : ∀ w ∈ s.history, Closed w.old ∨ Closed w.new → ∀ row ∈ s.rows, row.id = w.new.id → Closed row
  open_ : ∀ w ∈ s.history, Closed w.old → expiriesOf w = []
  before : s.history.Pairwise fun w w' =>
    w'.new.id = w.new.id → Closed w.old ∨ Closed w.new → expiriesOf w' = []

section
variable {server : Server} {start s s' : World ι} {ts : ι → Track (Duties ι)} {i : ι} {op : Op ι}

theorem expiries_congr (envelopeId : String) (h : s'.history = s.history) :
    expiries envelopeId s' = expiries envelopeId s := by
  rw [expiries, expiries, h]

theorem Once.congr (h : Once start s) (hrows : s'.rows = s.rows) (hhistory : s'.history = s.history) :
    Once start s' where
  kept := hrows ▸ h.kept
  known := hrows ▸ hhistory ▸ h.known
  count row hrow := expiries_congr row.id hhistory ▸ h.count row (hrows ▸ hrow)
  none e he hmarks := expiries_congr e.id hhistory ▸ hrows ▸ h.none e he hmarks
  closed := hrows ▸ hhistory ▸ h.closed
  open_ := hhistory ▸ h.open_
  before := hhistory ▸ h.before

/-- A row of a new identifier. -/
theorem Once.insert (h : Once start s) {e : McpEnvelope} (hnew : ∀ row ∈ s.rows, row.id ≠ e.id) :
    Once start { s with rows := s.rows ++ [e] } := by
  have hunknown : ∀ w ∈ s.history, w.new.id ≠ e.id := fun w hw hid => by
    obtain ⟨row, hrow, hrowid⟩ := h.known w hw
    exact hnew row hrow (hrowid.trans hid)
  exact
    { kept := fun e' he' => by
        obtain ⟨row, hrow, hid⟩ := h.kept e' he'
        exact ⟨row, List.mem_append_left _ hrow, hid⟩
      known := fun w hw => by
        obtain ⟨row, hrow, hid⟩ := h.known w hw
        exact ⟨row, List.mem_append_left _ hrow, hid⟩
      count := List.forall_mem_append.mpr ⟨h.count, List.forall_mem_singleton.mpr (by
        have hnone : expiries e.id s = [] := by
          rw [expiries, List.filter_eq_nil_iff.mpr fun w hw => by simpa using hunknown w hw]
          rfl
        have hlength : (expiries e.id s).length = 0 := by rw [hnone]; rfl
        exact hlength.trans_le (Nat.zero_le _))⟩
      none := fun e' he' hmarks => by
        obtain ⟨row, hrow, hid⟩ := h.kept e' he'
        refine ⟨(h.none e' he' hmarks).1, List.forall_mem_append.mpr
          ⟨(h.none e' he' hmarks).2, List.forall_mem_singleton.mpr fun hsame => ?_⟩⟩
        exact absurd (hid.trans hsame.symm) (hnew row hrow)
      closed := fun w hw hclosed => List.forall_mem_append.mpr
        ⟨h.closed w hw hclosed, List.forall_mem_singleton.mpr fun hid =>
          absurd hid.symm (hunknown w hw)⟩
      open_ := h.open_
      before := h.before }

/-- A row is replaced by a rewrite of itself. -/
theorem Once.update (h : Once start s) (hids : (s.rows.map (·.id)).Nodup) {j : Nat}
    {cur new : McpEnvelope} (tag : Tag ι) (hj : s.rows[j]? = some cur) (hid : new.id = cur.id)
    (hmarked : (expiredEmittedAt cur).isSome → (expiredEmittedAt new).isSome)
    (hclosed : Closed cur → Closed new)
    (hexpiries : expiriesOf (⟨tag, cur, new⟩ : Write ι) = [] ∨
      ((∃ event, expiriesOf (⟨tag, cur, new⟩ : Write ι) = [event]) ∧
        expiredEmittedAt cur = .none ∧ (expiredEmittedAt new).isSome ∧
        (cur.live = true ∨ cur.status = .expired))) :
    Once start { s with rows := s.rows.set j new, history := s.history ++ [⟨tag, cur, new⟩] } := by
  have hcur : cur ∈ s.rows := List.mem_of_getElem? hj
  have hnew : new ∈ s.rows.set j new := List.mem_set (List.getElem?_eq_some_iff.mp hj).1 _
  have hstays : ∀ row ∈ s.rows, ∃ row' ∈ s.rows.set j new, row'.id = row.id := fun row hrow => by
    have hmem : row.id ∈ (s.rows.set j new).map (·.id) := by
      rw [map_set_same hj hid]
      exact List.mem_map_of_mem hrow
    exact List.mem_map.mp hmem
  -- a completed or voided envelope receives none
  have hopen : Closed cur → expiriesOf (⟨tag, cur, new⟩ : Write ι) = [] := fun hc =>
    hexpiries.resolve_right fun hsome => hc.not_live hsome.2.2.2
  exact
    { kept := fun e he => by
        obtain ⟨row, hrow, hrowid⟩ := h.kept e he
        obtain ⟨row', hrow', hsame⟩ := hstays row hrow
        exact ⟨row', hrow', hsame.trans hrowid⟩
      known := List.forall_mem_append.mpr
        ⟨fun w hw => by
          obtain ⟨row, hrow, hrowid⟩ := h.known w hw
          obtain ⟨row', hrow', hsame⟩ := hstays row hrow
          exact ⟨row', hrow', hsame.trans hrowid⟩,
         List.forall_mem_singleton.mpr ⟨new, hnew, rfl⟩⟩
      count := fun row hrow => by
        rw [expiries_push]
        rcases mem_set_cases hids hj hid hrow with rfl | ⟨hold, hother⟩
        · rw [if_pos rfl, List.length_append, hid]
          have hcount := h.count cur hcur
          unfold marks at hcount ⊢
          rcases hexpiries with hnone | ⟨⟨event, hevent⟩, hnone, hsome, -⟩
          · rw [hnone, List.length_nil, Nat.add_zero]
            refine hcount.trans ?_
            split
            next hm => rw [if_pos (hmarked hm)]
            next => exact Nat.zero_le _
          · rw [if_neg (by rw [hnone]; exact Bool.false_ne_true)] at hcount
            rw [hevent, if_pos hsome, List.length_singleton]
            omega
        · rw [if_neg (fun hsame => hother (hsame.symm.trans hid)), List.append_nil]
          exact h.count row hold
      none := fun e he hmarks => by
        obtain ⟨hnone, hrows⟩ := h.none e he hmarks
        have hcurmarked : cur.id = e.id → (expiredEmittedAt cur).isSome := fun hsame => by
          have hone := hrows cur hcur hsame
          unfold marks at hone
          split at hone
          next hm => exact hm
          next => cases hone
        refine ⟨?_, fun row hrow hsame => ?_⟩
        · rw [expiries_push, hnone, List.nil_append]
          split
          next hsame =>
            refine hexpiries.resolve_right fun hsome => ?_
            have hm := hcurmarked (hid.symm.trans hsame)
            rw [hsome.2.1] at hm
            cases hm
          next => rfl
        · rcases mem_set_cases hids hj hid hrow with rfl | ⟨hold, -⟩
          · exact if_pos (hmarked (hcurmarked (hid.symm.trans hsame)))
          · exact hrows row hold hsame
      closed := List.forall_mem_append.mpr
        ⟨fun w hw hc row hrow hrowid => by
          rcases mem_set_cases hids hj hid hrow with rfl | ⟨hold, -⟩
          · exact hclosed (h.closed w hw hc cur hcur (hid.symm.trans hrowid))
          · exact h.closed w hw hc row hold hrowid,
         List.forall_mem_singleton.mpr fun hc row hrow hrowid => by
          rcases mem_set_cases hids hj hid hrow with rfl | ⟨hold, hother⟩
          · exact hc.elim hclosed fun hc => hc
          · exact absurd (hrowid.trans hid) hother⟩
      open_ := List.forall_mem_append.mpr ⟨h.open_, List.forall_mem_singleton.mpr hopen⟩
      before := List.pairwise_append.mpr
        ⟨h.before, List.pairwise_singleton _ _, fun w hw w' hw' hsame hc => by
          rw [List.mem_singleton.mp hw'] at hsame ⊢
          exact hopen (h.closed w hw hc cur hcur (hid.symm.trans hsame))⟩ }

theorem Once.step (hbase : Base s ts) (h : Once start s) (hstep : RowStep server (ts i) s s' op) :
    Once start s' := by
  cases hstep with
  | same hrows hhistory => exact h.congr hrows hhistory
  | insert e hfresh hs' =>
    have hdrawn : e.id ∈ (ts i).drawn := hfresh.ids.subset List.mem_cons_self
    exact hs' ▸ h.insert fun row hrow hsame => hbase.row_unused i row hrow (hsame ▸ hdrawn)
  | update tag e j cur hj hedits hwrites hs' =>
    subst hs'
    have hcur : cur ∈ s.rows := List.mem_of_getElem? hj
    exact h.update hbase.ids tag hj hedits.id (fun hm => hwrites.rewrite.emitted hm)
      (fun hc => hwrites.rewrite.closed hc)
      (expiriesOf_cases (hbase.log_unused i cur hcur) hwrites _)

/-- Whatever is called, in any order and whatever fails: a log receives
`envelope.expired` at most once, and never where it was marked before; nor does
an envelope that was completed or voided before. -/
theorem expired_once [DecidableEq ι] {calls : ι → Call}
    {c : World ι × (ι → Prog (Op ι) Res (Except Thrown Unit))} (hstart : Starts s)
    (hnothing : s.history = []) (hrun : Run exec (serve server calls s) c) :
    (∀ envelopeId, (expiries envelopeId c.1).length ≤ 1) ∧
      (∀ e ∈ s.rows, (expiredEmittedAt e).isSome → expiries e.id c.1 = []) ∧
      (∀ w ∈ c.1.history, Closed w.old → expiriesOf w = []) ∧
      c.1.history.Pairwise fun w w' =>
        w'.new.id = w.new.id → Closed w.old ∨ Closed w.new → expiriesOf w' = [] := by
  have hbegun : Serving server (serve server calls s) started := .start hstart calls
  have hnone : ∀ envelopeId, expiries envelopeId s = [] := fun envelopeId => by
    rw [expiries, hnothing]
    rfl
  have honce : Once s s :=
    { kept := fun e he => ⟨e, he, rfl⟩
      known := by rw [hnothing]; exact List.forall_mem_nil _
      count := fun row _ => by rw [hnone]; exact Nat.zero_le _
      none := fun e he hmarks => ⟨hnone _, fun row hrow hsame => by
        rwa [eq_of_key hstart.ids hrow he hsame]⟩
      closed := by rw [hnothing]; exact List.forall_mem_nil _
      open_ := by rw [hnothing]; exact List.forall_mem_nil _
      before := by rw [hnothing]; exact .nil }
  obtain ⟨ts, hserving, h⟩ := hbegun.rows (J := Once s) (fun _ _ _ _ h => h)
    (fun _ _ _ _ _ _ hbase h _ hstep => h.step hbase hstep) honce hrun
  refine ⟨fun envelopeId => ?_, fun e he hm => (h.none e he (if_pos hm)).1, h.open_, h.before⟩
  by_cases hknown : ∃ row ∈ c.1.rows, row.id = envelopeId
  · obtain ⟨row, hrow, rfl⟩ := hknown
    refine (h.count row hrow).trans ?_
    unfold marks
    split
    · exact le_rfl
    · exact Nat.zero_le _
  · have hempty : c.1.history.filter (·.new.id = envelopeId) = [] :=
      List.filter_eq_nil_iff.mpr fun w hw => by
        simp only [decide_eq_true_eq]
        exact fun hid => hknown ((h.known w hw).imp fun row hrow => ⟨hrow.1, hrow.2.trans hid⟩)
    rw [expiries, hempty]
    exact Nat.zero_le _

end

namespace ExpirySample

open ServiceSample (envelope)

/-- Two passes of the scheduler. -/
def calls (_ : Bool) : Call := .schedulerTick false

def start : World Bool := { rows := [envelope {}], drawn := ["envelope"] }

theorem starts : Starts start where
  ids := by decide
  row_drawn := by decide
  log_drawn := by decide

/-- Both have found the envelope past its expiry before either writes. -/
def turns : List (Bool × Turn) :=
  [(false, { time := 200 }), (false, {}), (false, {}), (false, {}), (true, { time := 200 }), (true, {}),
    (true, {}), (true, {}), (false, {}), (false, { text := "first" }), (true, {}),
    (true, { text := "second" }), (false, {}), (true, {}), (false, {}), (false, {}), (true, {})]

end ExpirySample

theorem expired_once_sample :
    let c := turned ExpirySample.turns (serve ServiceSample.server ExpirySample.calls ExpirySample.start)
    (expiries "envelope" c.1).length ≤ 1 ∧ 0 < (expiries "envelope" c.1).length :=
  ⟨(expired_once ExpirySample.starts rfl (turned_run (by decide +kernel))).1 "envelope",
    by decide +kernel⟩

end EsigSuite.Mcp
