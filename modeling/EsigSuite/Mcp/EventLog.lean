import EsigSuite.Mcp.EventLogRuns
import EsigSuite.Mcp.ServiceSchedule

/-!
# What the log keeps and what is reported

`Logged` is the invariant of `appendEvent` calls: the log is the window of all
events so far, and what has left it is reported or about to be.
-/

namespace EsigSuite.Mcp

open Lib
open EnvelopeFile (getRev setRev)
open Protocol (Triple)

variable {ι : Type}

-- ---------------------------------------------------------------------------
-- The invariant
-- ---------------------------------------------------------------------------

/-- All events so far, from those that were there. -/
def total (start : List EsigEvent) (s : World ι) : List EsigEvent := start ++ appended s

structure Logged [DecidableEq ι] (envelopeId : String) (start : List EsigEvent) (s : World ι)
    (ts : ι → Track (AppendOwn ι)) : Prop where
  nodup : ((total start s).map (·.id)).Nodup
  drawn : ∀ event ∈ total start s, event.id ∈ s.drawn
  unused : ∀ i, ∀ event ∈ total start s, event.id ∉ (ts i).drawn
  log : ∀ e ∈ s.rows, e.id = envelopeId → eventsOf e = lastEvents (total start s)
  dropped_eq : dropped s = spilled MAX_EVENTS (total start s)
  dropped_iff : ∀ id, id ∈ (dropped s).map (·.id) ↔
    id ∈ reported envelopeId s ∨ ∃ i, id ∈ (ts i).own.due
  reported_nodup : (reported envelopeId s).Nodup
  due_nodup : ∀ i, (ts i).own.due.Nodup
  due_unreported : ∀ i, ∀ id ∈ (ts i).own.due, id ∉ reported envelopeId s
  due_apart : ∀ i j, i ≠ j → ∀ id ∈ (ts i).own.due, id ∉ (ts j).own.due
  who : ∀ i, (ts i).own.who = i
  once : ∀ i, (appendedBy i s).length ≤ if (ts i).own.wrote then 1 else 0

variable [DecidableEq ι] {envelopeId : String} {start : List EsigEvent} {s s' : World ι}
  {ts : ι → Track (AppendOwn ι)} {i : ι}

theorem appended_congr (h : s'.history = s.history) : appended s' = appended s := by
  rw [appended, appended, h]

/-- Nothing happens to the log and its reports. -/
theorem Logged.retrack (h : Logged envelopeId start s ts) (hrows : s'.rows = s.rows)
    (hgrown : ∀ id ∈ s.drawn, id ∈ s'.drawn) (hhistory : s'.history = s.history)
    (hreported : reported envelopeId s' = reported envelopeId s) {t : Track (AppendOwn ι)}
    (hdrawn : ∀ id ∈ t.drawn, id ∈ (ts i).drawn) (hwho : t.own.who = (ts i).own.who)
    (hwrote : t.own.wrote = (ts i).own.wrote) (hdue : t.own.due = (ts i).own.due) :
    Logged envelopeId start s' (Function.update ts i t) := by
  have htotal : total start s' = total start s := by rw [total, total, appended_congr hhistory]
  have hdropped : dropped s' = dropped s := by rw [dropped, dropped, hhistory]
  have hown : ∀ j, (Function.update ts i t j).own.due = (ts j).own.due :=
    (Function.forall_update_iff ts fun j u => u.own.due = (ts j).own.due).mpr
      ⟨hdue, fun _ _ => rfl⟩
  exact
    { nodup := htotal ▸ h.nodup
      drawn := fun event hevent => hgrown _ (h.drawn event (htotal ▸ hevent))
      unused := (Function.forall_update_iff ts fun _ u =>
          ∀ event ∈ total start s', event.id ∉ u.drawn).mpr
        ⟨fun event hevent hid => h.unused i event (htotal ▸ hevent) (hdrawn _ hid),
          fun j _ => htotal ▸ h.unused j⟩
      log := htotal ▸ hrows ▸ h.log
      dropped_eq := htotal ▸ hdropped ▸ h.dropped_eq
      dropped_iff := by
        intro id
        simp only [hdropped, hreported, hown]
        exact h.dropped_iff id
      reported_nodup := hreported ▸ h.reported_nodup
      due_nodup := fun j => hown j ▸ h.due_nodup j
      due_unreported := fun j => hown j ▸ hreported ▸ h.due_unreported j
      due_apart := fun j k hjk => hown j ▸ hown k ▸ h.due_apart j k hjk
      who := (Function.forall_update_iff ts fun j u => u.own.who = j).mpr
        ⟨hwho.trans (h.who i), fun j _ => h.who j⟩
      once := (Function.forall_update_iff ts fun j u =>
          (appendedBy j s').length ≤ if u.own.wrote then 1 else 0).mpr
        ⟨by rw [hwrote, appendedBy, hhistory]; exact h.once i,
          fun j _ => by rw [appendedBy, hhistory]; exact h.once j⟩ }

/-- The same of a call that leaves rows alone. -/
theorem Logged.pass (h : Logged envelopeId start s ts) (hsame : SameRows s s')
    (hreported : reported envelopeId s' = reported envelopeId s) {t : Track (AppendOwn ι)}
    (hdrawn : ∀ id ∈ t.drawn, id ∈ (ts i).drawn) (hwho : t.own.who = (ts i).own.who)
    (hwrote : t.own.wrote = (ts i).own.wrote) (hdue : t.own.due = (ts i).own.due) :
    Logged envelopeId start s' (Function.update ts i t) :=
  h.retrack hsame.1 (fun _ hid => hsame.2.1 ▸ hid) hsame.2.2 hreported hdrawn hwho hwrote hdue

/-- An identifier is drawn. -/
theorem Logged.draw (h : Logged envelopeId start s ts) {id : String} (hnew : id ∉ s.drawn)
    {t : Track (AppendOwn ι)} (hdrawn : t.drawn = id :: (ts i).drawn) (hown : t.own = (ts i).own) :
    Logged envelopeId start { s with drawn := id :: s.drawn } (Function.update ts i t) := by
  have howns : ∀ j, (Function.update ts i t j).own = (ts j).own :=
    (Function.forall_update_iff ts fun j u => u.own = (ts j).own).mpr ⟨hown, fun _ _ => rfl⟩
  exact
    { nodup := h.nodup
      drawn := fun event hevent => List.mem_cons_of_mem _ (h.drawn event hevent)
      unused := (Function.forall_update_iff ts fun _ u =>
          ∀ event ∈ total start s, event.id ∉ u.drawn).mpr
        ⟨by
          rw [hdrawn]
          intro event hevent hid
          rcases List.mem_cons.mp hid with hid | hid
          · exact hnew (hid ▸ h.drawn event hevent)
          · exact h.unused i event hevent hid,
         fun j _ => h.unused j⟩
      log := h.log
      dropped_eq := h.dropped_eq
      dropped_iff := by
        intro id
        simp only [howns]
        exact h.dropped_iff id
      reported_nodup := h.reported_nodup
      due_nodup := fun j => howns j ▸ h.due_nodup j
      due_unreported := fun j => howns j ▸ h.due_unreported j
      due_apart := fun j k hjk => howns j ▸ howns k ▸ h.due_apart j k hjk
      who := fun j => howns j ▸ h.who j
      once := fun j => howns j ▸ h.once j }

-- ---------------------------------------------------------------------------
-- Reports
-- ---------------------------------------------------------------------------

/-- The ids that a call owed are reported. -/
theorem Logged.report (h : Logged envelopeId start s ts) {entry : AuditLogEntry}
    (hids : trimmedIdsOf envelopeId entry = (ts i).own.due) {t : Track (AppendOwn ι)}
    (hdrawn : t.drawn = (ts i).drawn) (hown : t.own = { (ts i).own with due := [] }) :
    Logged envelopeId start { s with audits := s.audits ++ [entry] } (Function.update ts i t) := by
  have hreported : reported envelopeId { s with audits := s.audits ++ [entry] } =
      reported envelopeId s ++ (ts i).own.due := by
    rw [reported, List.flatMap_append, List.flatMap_singleton, hids]
    rfl
  have hdue : ∀ j, (Function.update ts i t j).own.due = if j = i then [] else (ts j).own.due :=
    (Function.forall_update_iff ts fun j u => u.own.due = if j = i then [] else (ts j).own.due).mpr
      ⟨by rw [hown, if_pos rfl], fun j hj => by rw [if_neg hj]⟩
  have hsub : ∀ j, ∀ id ∈ (Function.update ts i t j).own.due, j ≠ i ∧ id ∈ (ts j).own.due := by
    intro j id hid
    rw [hdue] at hid
    by_cases hj : j = i
    · rw [if_pos hj] at hid
      cases hid
    · rw [if_neg hj] at hid
      exact ⟨hj, hid⟩
  exact
    { nodup := h.nodup
      drawn := h.drawn
      unused := (Function.forall_update_iff ts fun _ u =>
          ∀ event ∈ total start s, event.id ∉ u.drawn).mpr ⟨hdrawn ▸ h.unused i, fun j _ => h.unused j⟩
      log := h.log
      dropped_eq := h.dropped_eq
      dropped_iff := by
        intro id
        rw [hreported, List.mem_append]
        refine (h.dropped_iff id).trans ⟨?_, ?_⟩
        · rintro (hold | ⟨j, hj⟩)
          · exact .inl (.inl hold)
          · by_cases hji : j = i
            · exact .inl (.inr (hji ▸ hj))
            · exact .inr ⟨j, by rwa [hdue, if_neg hji]⟩
        · rintro ((hold | hnew) | ⟨j, hj⟩)
          · exact .inl hold
          · exact .inr ⟨i, hnew⟩
          · exact .inr ⟨j, (hsub j id hj).2⟩
      reported_nodup := by
        rw [hreported, List.nodup_append]
        refine ⟨h.reported_nodup, h.due_nodup i, ?_⟩
        rintro id hid _ hdue' rfl
        exact h.due_unreported i id hdue' hid
      due_nodup := fun j => by
        rw [hdue]
        split
        · exact List.nodup_nil
        · exact h.due_nodup j
      due_unreported := fun j id hid => by
        obtain ⟨hj, hid⟩ := hsub j id hid
        rw [hreported, List.mem_append]
        rintro (hold | hnew)
        · exact h.due_unreported j id hid hold
        · exact h.due_apart j i hj id hid hnew
      due_apart := fun j k hjk id hid hid' =>
        h.due_apart j k hjk id (hsub j id hid).2 (hsub k id hid').2
      who := (Function.forall_update_iff ts fun j u => u.own.who = j).mpr
        ⟨by rw [hown]; exact h.who i, fun j _ => h.who j⟩
      once := (Function.forall_update_iff ts fun j u =>
          (appendedBy j s).length ≤ if u.own.wrote then 1 else 0).mpr
        ⟨by rw [hown]; exact h.once i, fun j _ => h.once j⟩ }

-- ---------------------------------------------------------------------------
-- Writes
-- ---------------------------------------------------------------------------

/-- The state after a write. -/
def wrote (s : World ι) (j : Nat) (w : Write ι) : World ι :=
  { s with rows := s.rows.set j w.new, history := s.history ++ [w] }

omit [DecidableEq ι] in
theorem appended_wrote (s : World ι) (j : Nat) (w : Write ι) :
    appended (wrote s j w) = appended s ++ newEvents w := by
  simp [appended, wrote]

omit [DecidableEq ι] in
theorem dropped_wrote (s : World ι) (j : Nat) (w : Write ι) :
    dropped (wrote s j w) = dropped s ++ droppedEvents w := by
  simp [dropped, wrote]

theorem appendedBy_wrote (who : ι) (s : World ι) (j : Nat) (w : Write ι) :
    appendedBy who (wrote s j w) =
      appendedBy who s ++ if w.tag.who = who then newEvents w else [] := by
  simp only [appendedBy, wrote, List.filter_append, List.flatMap_append]
  congr 1
  by_cases hwho : w.tag.who = who <;> simp [hwho]

omit [DecidableEq ι] in
theorem newEvents_same {w : Write ι} (h : eventsOf w.new = eventsOf w.old) : newEvents w = [] := by
  simp [newEvents, h]

omit [DecidableEq ι] in
theorem droppedEvents_same {w : Write ι} (h : eventsOf w.new = eventsOf w.old) :
    droppedEvents w = [] := by
  simp [droppedEvents, h]

omit [DecidableEq ι] in
theorem newEvents_append {w : Write ι} {event : EsigEvent}
    (h : eventsOf w.new = lastEvents (eventsOf w.old ++ [event])) (hnew : event ∉ eventsOf w.old) :
    newEvents w = [event] := by
  rw [newEvents, h]
  exact filter_window_push MAX_EVENTS_pos hnew

omit [DecidableEq ι] in
theorem droppedEvents_append {w : Write ι} {event : EsigEvent}
    (h : eventsOf w.new = lastEvents (eventsOf w.old ++ [event])) (hnew : event ∉ eventsOf w.old)
    (hnodup : (eventsOf w.old).Nodup) :
    droppedEvents w = spilled MAX_EVENTS (eventsOf w.old ++ [event]) := by
  rw [droppedEvents, h]
  exact filter_spilled_push MAX_EVENTS_pos hnodup hnew

/-- The row is replaced and its log is the same. -/
theorem Logged.rewrite (h : Logged envelopeId start s ts) {j : Nat} {w : Write ι}
    (hj : s.rows[j]? = some w.old) (hid : w.new.id = w.old.id)
    (hlog : eventsOf w.new = eventsOf w.old) {t : Track (AppendOwn ι)}
    (hdrawn : ∀ id ∈ t.drawn, id ∈ (ts i).drawn) (hown : t.own = (ts i).own) :
    Logged envelopeId start (wrote s j w) (Function.update ts i t) := by
  have happended : appended (wrote s j w) = appended s := by
    rw [appended_wrote, newEvents_same hlog, List.append_nil]
  have hdropped : dropped (wrote s j w) = dropped s := by
    rw [dropped_wrote, droppedEvents_same hlog, List.append_nil]
  have htotal : total start (wrote s j w) = total start s := by rw [total, total, happended]
  have hby : ∀ k, appendedBy k (wrote s j w) = appendedBy k s := fun k => by
    rw [appendedBy_wrote, newEvents_same hlog, ite_self, List.append_nil]
  have howns : ∀ k, (Function.update ts i t k).own = (ts k).own :=
    (Function.forall_update_iff ts fun k u => u.own = (ts k).own).mpr ⟨hown, fun _ _ => rfl⟩
  exact
    { nodup := htotal ▸ h.nodup
      drawn := htotal ▸ h.drawn
      unused := (Function.forall_update_iff ts fun _ u =>
          ∀ event ∈ total start (wrote s j w), event.id ∉ u.drawn).mpr
        ⟨fun event hevent hmem => h.unused i event (htotal ▸ hevent) (hdrawn _ hmem),
          fun k _ => htotal ▸ h.unused k⟩
      log := by
        rw [htotal]
        refine forall_mem_set h.log fun hnew => ?_
        rw [hlog]
        exact h.log _ (List.mem_of_getElem? hj) (hid.symm.trans hnew)
      dropped_eq := htotal ▸ hdropped ▸ h.dropped_eq
      dropped_iff := by
        intro id
        simp only [hdropped, howns]
        exact h.dropped_iff id
      reported_nodup := h.reported_nodup
      due_nodup := fun k => howns k ▸ h.due_nodup k
      due_unreported := fun k => howns k ▸ h.due_unreported k
      due_apart := fun k l hkl => howns k ▸ howns l ▸ h.due_apart k l hkl
      who := fun k => howns k ▸ h.who k
      once := fun k => howns k ▸ (hby k ▸ h.once k) }

/-- An event is appended, and what it pushes out is owed. -/
theorem Logged.append (h : Logged envelopeId start s ts) (hids : (s.rows.map (·.id)).Nodup)
    {j : Nat} {w : Write ι} (hj : s.rows[j]? = some w.old) (hold : w.old.id = envelopeId)
    (hid : w.new.id = w.old.id) {event : EsigEvent}
    (hlog : eventsOf w.new = lastEvents (eventsOf w.old ++ [event]))
    (hevent : event.id ∈ (ts i).drawn) (hevent_drawn : event.id ∈ s.drawn)
    (hevent_apart : ∀ k, k ≠ i → event.id ∉ (ts k).drawn) (hwho : w.tag.who = i)
    (hunwritten : (ts i).own.wrote = false) (hdue : (ts i).own.due = [])
    {t : Track (AppendOwn ι)} (hdrawn : ∀ id ∈ t.drawn, id ∈ (ts i).drawn ∧ id ≠ event.id)
    (hown : t.own = { (ts i).own with wrote := true, due := trimmedIds w.old }) :
    Logged envelopeId start (wrote s j w) (Function.update ts i t) := by
  have hmem : w.old ∈ s.rows := List.mem_of_getElem? hj
  have hwindow : eventsOf w.old = lastEvents (total start s) := h.log _ hmem hold
  have hnew : event ∉ total start s := fun hin => h.unused i event hin hevent
  have hnotold : event ∉ eventsOf w.old := fun hin =>
    hnew (mem_of_mem_window (hwindow ▸ hin))
  have holdnodup : (eventsOf w.old).Nodup := by
    rw [hwindow]
    exact (List.Nodup.of_map _ h.nodup).sublist (List.drop_sublist _ _)
  have htotal : total start (wrote s j w) = total start s ++ [event] := by
    rw [total, appended_wrote, newEvents_append hlog hnotold, ← List.append_assoc]
    rfl
  have hspilled : dropped (wrote s j w) =
      dropped s ++ spilled MAX_EVENTS (eventsOf w.old ++ [event]) := by
    rw [dropped_wrote, droppedEvents_append hlog hnotold holdnodup]
  have hdropped : dropped (wrote s j w) = spilled MAX_EVENTS (total start (wrote s j w)) := by
    rw [hspilled, h.dropped_eq, hwindow, htotal]
    exact spilled_window_push _ _ _ MAX_EVENTS_pos
  have hids_new : trimmedIds w.old =
      (spilled MAX_EVENTS (eventsOf w.old ++ [event])).map (·.id) := by
    rw [trimmedIds, spilled_push _ _ _ MAX_EVENTS_pos]
  have hnodup : ((total start (wrote s j w)).map (·.id)).Nodup := by
    rw [htotal, List.map_append, List.nodup_append]
    refine ⟨h.nodup, by simp, ?_⟩
    simp only [List.mem_map, List.map_cons, List.map_nil, List.mem_singleton]
    rintro _ ⟨other, hother, rfl⟩ _ rfl hsame
    exact h.unused i other hother (hsame ▸ hevent)
  have hboth : ((dropped s).map (·.id) ++ trimmedIds w.old).Nodup := by
    rw [hids_new, ← List.map_append, ← hspilled, hdropped]
    exact hnodup.sublist ((List.take_sublist _ _).map _)
  have hdues : ∀ k, (Function.update ts i t k).own.due =
      if k = i then trimmedIds w.old else (ts k).own.due :=
    (Function.forall_update_iff ts fun k u =>
        u.own.due = if k = i then trimmedIds w.old else (ts k).own.due).mpr
      ⟨by rw [hown, if_pos rfl], fun k hk => by rw [if_neg hk]⟩
  have hfresh : ∀ id ∈ trimmedIds w.old, id ∉ (dropped s).map (·.id) := fun id hin hout =>
    (List.nodup_append.mp hboth).2.2 id hout id hin rfl
  have hold_due : ∀ k, ∀ id ∈ (ts k).own.due, id ∈ (dropped s).map (·.id) := fun k id hk =>
    (h.dropped_iff id).mpr (.inr ⟨k, hk⟩)
  exact
    { nodup := hnodup
      drawn := by
        rw [htotal]
        exact List.forall_mem_append.mpr ⟨h.drawn, List.forall_mem_singleton.mpr hevent_drawn⟩
      unused := by
        rw [htotal]
        refine (Function.forall_update_iff ts fun _ u =>
          ∀ event' ∈ total start s ++ [event], event'.id ∉ u.drawn).mpr ⟨?_, fun k hk => ?_⟩
        · refine List.forall_mem_append.mpr ⟨fun other hother hin => ?_, ?_⟩
          · exact h.unused i other hother (hdrawn _ hin).1
          · simpa using fun hin => (hdrawn event.id hin).2 rfl
        · exact List.forall_mem_append.mpr ⟨h.unused k, by simpa using hevent_apart k hk⟩
      log := by
        intro e he hsame
        rw [eq_of_mem_set_key hids hj hid he (hsame.trans hold.symm), hlog, hwindow, htotal]
        exact window_window_push _ _ _ MAX_EVENTS_pos
      dropped_eq := hdropped
      dropped_iff := by
        intro id
        rw [hspilled, List.map_append, ← hids_new, List.mem_append, h.dropped_iff id]
        constructor
        · rintro ((hrep | ⟨k, hk⟩) | hin)
          · exact .inl hrep
          · refine .inr ⟨k, ?_⟩
            rw [hdues, if_neg]
            · exact hk
            · rintro rfl
              rw [hdue] at hk
              cases hk
          · exact .inr ⟨i, by rwa [hdues, if_pos rfl]⟩
        · rintro (hrep | ⟨k, hk⟩)
          · exact .inl (.inl hrep)
          · rw [hdues] at hk
            split at hk
            · exact .inr hk
            · exact .inl (.inr ⟨k, hk⟩)
      reported_nodup := h.reported_nodup
      due_nodup := fun k => by
        rw [hdues]
        split
        · exact (List.nodup_append.mp hboth).2.1
        · exact h.due_nodup k
      due_unreported := fun k id hk hrep => by
        rw [hdues] at hk
        split at hk
        · exact hfresh id hk ((h.dropped_iff id).mpr (.inl hrep))
        · exact h.due_unreported k id hk hrep
      due_apart := fun k l hkl id hk hl => by
        rw [hdues] at hk hl
        split at hk <;> split at hl
        · next hki hli => exact hkl (hki.trans hli.symm)
        · exact hfresh id hk (hold_due l id hl)
        · exact hfresh id hl (hold_due k id hk)
        · exact h.due_apart k l hkl id hk hl
      who := (Function.forall_update_iff ts fun k u => u.own.who = k).mpr
        ⟨by rw [hown]; exact h.who i, fun k _ => h.who k⟩
      once := by
        refine (Function.forall_update_iff ts fun k u =>
          (appendedBy k (wrote s j w)).length ≤ if u.own.wrote then 1 else 0).mpr ⟨?_, fun k hk => ?_⟩
        · have hnone := h.once i
          rw [hunwritten] at hnone
          rw [appendedBy_wrote, if_pos hwho, newEvents_append hlog hnotold, hown, List.length_append]
          simpa using hnone
        · rw [appendedBy_wrote, if_neg (fun hw => hk (hw.symm.trans hwho)), List.append_nil]
          exact h.once k }

-- ---------------------------------------------------------------------------
-- One call
-- ---------------------------------------------------------------------------

omit [DecidableEq ι] in
/-- An edit without a new event leaves the log as it is. -/
theorem Edits.log_same {drawn : List String} {e e' : McpEnvelope} (h : Edits drawn e e')
    (hold : hasNew drawn e' = false) : eventsOf e' = eventsOf e := by
  rcases h.log with hlog | ⟨event, hevent, hlog⟩
  · exact hlog
  · have hmem : event ∈ eventsOf e' := hlog ▸ mem_window_push _ _ _ MAX_EVENTS_pos
    simp only [hasNew, List.any_eq_false, decide_eq_true_eq] at hold
    exact absurd hevent (hold event hmem)

omit [DecidableEq ι] in
theorem Edits.log_append {drawn : List String} {e e' : McpEnvelope} (h : Edits drawn e e')
    (hunused : ∀ event ∈ eventsOf e, event.id ∉ drawn) (hnew : hasNew drawn e' = true) :
    ∃ event : EsigEvent, event.id ∈ drawn ∧ eventsOf e' = lastEvents (eventsOf e ++ [event]) := by
  rcases h.log with hlog | happend
  · obtain ⟨event, hmem, hin⟩ := List.any_eq_true.mp hnew
    exact absurd (of_decide_eq_true hin) (hunused event (hlog ▸ hmem))
  · exact happend

theorem Logged.update_step (hbase : Base s ts) (h : Logged envelopeId start s ts) {tag : Tag ι}
    {e : McpEnvelope} (hswap : Swapped tag e s s')
    (hpermits : (AppendOwn.rules envelopeId).permits (ts i) (.update tag e)) :
    Logged envelopeId start s' (Function.update ts i
      ((AppendOwn.rules envelopeId).track (ts i) (.update tag e)
        (.ok (setRev e (getRev e + 1))))) := by
  obtain ⟨j, cur, hj, -, hedits, ⟨hlast, hid, hdue, hown⟩, rfl⟩ := hbase.swapped hpermits hswap
  have hcur : cur ∈ s.rows := List.mem_of_getElem? hj
  cases hnew : hasNew (ts i).drawn e with
  | false =>
    exact h.rewrite (w := ⟨tag, cur, setRev e (getRev e + 1)⟩) hj hedits.id (hedits.log_same hnew)
      (fun id hin => (List.mem_filter.mp hin).1) (AppendOwn.updated_same (.ok (setRev e (getRev e + 1))) hnew)
  | true =>
    obtain ⟨event, hevent, hlog⟩ := hedits.log_append (hbase.log_unused i cur hcur) hnew
    obtain ⟨hwho, hunwritten⟩ := hown hnew
    refine h.append (w := ⟨tag, cur, setRev e (getRev e + 1)⟩) hbase.ids hj hid hedits.id hlog hevent
      (hbase.own_drawn i _ hevent) (fun k hk => hbase.apart i k (Ne.symm hk) _ hevent)
      (hwho.trans (h.who i)) hunwritten hdue (fun id hin => ?_) (AppendOwn.updated_ok (setRev e (getRev e + 1)) hlast hnew)
    obtain ⟨hin, hkept⟩ := List.mem_filter.mp hin
    refine ⟨hin, ?_⟩
    rintro rfl
    simp only [Bool.not_eq_true', List.any_eq_false, beq_iff_eq] at hkept
    exact hkept event (hlog ▸ mem_window_push _ _ _ MAX_EVENTS_pos) rfl

theorem Logged.audit_step (h : Logged envelopeId start s ts) {entry : AuditLogEntry}
    {r : Except Thrown Unit} (hexec : exec (.audit entry) s r s') (hreported : Reported (.audit entry : Op ι) r)
    (hpermits : (AppendOwn.rules envelopeId).permits (ts i) (.audit entry)) :
    Logged envelopeId start s' (Function.update ts i
      ((AppendOwn.rules envelopeId).track (ts i) (.audit entry) r)) := by
  by_cases haction : entry.action = .events_trimmed
  · obtain ⟨htarget, hmetadata, -⟩ := hpermits haction
    rcases hexec with ⟨rfl, rfl⟩ | ⟨rfl, error, rfl⟩
    · refine h.report ?_ rfl ?_
      · rw [trimmedIdsOf, if_pos ⟨haction, htarget⟩, hmetadata]
      · change (ts i).own.audited entry = _
        rw [AppendOwn.audited, if_pos haction]
    · cases hreported haction
  · have hown : (ts i).own.audited entry = (ts i).own := by
      rw [AppendOwn.audited, if_neg haction]
    have hsilent : trimmedIdsOf envelopeId entry = [] := by
      rw [trimmedIdsOf, if_neg fun hboth => haction hboth.1]
    refine h.pass (sameRows hexec rfl) ?_ (fun id hid => hid) (congrArg (·.who) hown)
      (congrArg (·.wrote) hown) (congrArg (·.due) hown)
    rcases hexec with ⟨rfl, -⟩ | ⟨rfl, -⟩
    · rw [reported, List.flatMap_append, List.flatMap_singleton, hsilent, List.append_nil]
      rfl
    · rfl

omit [DecidableEq ι] in
theorem found_own (own : AppendOwn ι) (r : Except Thrown (Option McpEnvelope)) :
    (own.found r).who = own.who ∧ (own.found r).wrote = own.wrote ∧
      (own.found r).due = own.due := by
  match r with
  | .ok (some e) => exact ⟨rfl, rfl, rfl⟩
  | .ok none => exact ⟨rfl, rfl, rfl⟩
  | .error error => exact ⟨rfl, rfl, rfl⟩

omit [DecidableEq ι] in
theorem audits_eq {op : Op ι} {r : Res op} (hexec : exec op s r s')
    (hop : ∀ entry, op ≠ .audit entry) : s'.audits = s.audits := by
  cases op with
  | audit entry => exact absurd rfl (hop entry)
  | queue process op =>
    obtain ⟨-, hexec⟩ := hexec
    cases op with
    | enterTick => obtain ⟨-, rfl⟩ := hexec; rfl
    | leaveTick => cases hexec; rfl
    | _ => rcases hexec with ⟨rfl, -⟩ | ⟨rfl, -⟩ <;> rfl
  | random | randomUUID => obtain ⟨-, rfl⟩ := hexec; rfl
  | update tag e =>
    rcases hexec with ⟨⟨j, cur, -, -, -, -, rfl⟩, -⟩ | ⟨rfl, -⟩ <;> rfl
  | enqueue event => rcases hexec with ⟨⟨_, rfl⟩, -⟩ | ⟨rfl, -⟩ <;> rfl
  | deliver tag envelope links => obtain ⟨ok, rfl, -⟩ := hexec; rfl
  | insert | findById | findByTokenHash | listEnvelopes =>
    rcases hexec with ⟨rfl, -⟩ | ⟨rfl, -⟩ <;> rfl
  | _ => cases hexec; rfl

theorem Logged.step (hbase : Base s ts) (h : Logged envelopeId start s ts) {op : Op ι} {r : Res op}
    (hexec : Answered exec Reported op s r s')
    (hpermits : (AppendOwn.rules envelopeId).permits (ts i) op) :
    Logged envelopeId start s' (Function.update ts i
      ((AppendOwn.rules envelopeId).track (ts i) op r)) := by
  obtain ⟨hexec, hreported⟩ := hexec
  cases op with
  | insert e => exact hpermits.2.2.elim
  | random =>
    obtain ⟨-, rfl⟩ := hexec
    have hrows : ({ s with drawn := (r : String) :: s.drawn } : World ι).rows = s.rows := rfl
    exact h.retrack hrows (fun _ => List.mem_cons_of_mem _) rfl rfl (fun _ hid => hid) rfl rfl rfl
  | randomUUID =>
    obtain ⟨hnew, rfl⟩ := hexec
    exact h.draw hnew rfl rfl
  | update tag e =>
    rcases hexec with ⟨hswap, rfl⟩ | ⟨rfl, error, rfl⟩
    · exact h.update_step hbase hswap hpermits
    · exact h.pass ⟨rfl, rfl, rfl⟩ rfl (fun id hin => (List.mem_filter.mp hin).1) rfl rfl rfl
  | audit entry => exact h.audit_step hexec hreported hpermits
  | findById tag tenantId id =>
    obtain ⟨hwho, hwrote, hdue⟩ := found_own (ts i).own r
    exact h.pass (sameRows hexec rfl) (by rw [reported, reported, audits_eq hexec (by simp)])
      (fun _ hid => hid) hwho hwrote hdue
  | _ =>
    exact h.pass (sameRows hexec rfl) (by rw [reported, reported, audits_eq hexec (by simp)])
      (fun _ hid => hid) rfl rfl rfl

-- ---------------------------------------------------------------------------
-- Every interleaving
-- ---------------------------------------------------------------------------

/-- The log before the calls. Every identifier in use was drawn. -/
structure LogStart (envelopeId : String) (start : List EsigEvent) (s : World ι) : Prop where
  ids : (s.rows.map (·.id)).Nodup
  row_drawn : ∀ e ∈ s.rows, e.id ∈ s.drawn
  log_drawn : ∀ e ∈ s.rows, ∀ event ∈ eventsOf e, event.id ∈ s.drawn
  log : ∀ e ∈ s.rows, e.id = envelopeId → eventsOf e = start
  start_drawn : ∀ event ∈ start, event.id ∈ s.drawn
  start_nodup : (start.map (·.id)).Nodup
  start_length : start.length ≤ MAX_EVENTS
  history : s.history = []
  reported : reported envelopeId s = []

def startTracks (i : ι) : Track (AppendOwn ι) := { own := { who := i } }

omit [DecidableEq ι] in
theorem LogStart.base (h : LogStart envelopeId start s) : Base s (startTracks (ι := ι)) where
  ids := h.ids
  row_drawn := h.row_drawn
  log_drawn := h.log_drawn
  current _ _ he := by cases he
  own_drawn _ _ hid := by cases hid
  row_unused _ _ _ hid := by cases hid
  log_unused _ _ _ _ _ hid := by cases hid
  apart _ _ _ _ hid := by cases hid

theorem LogStart.logged (h : LogStart envelopeId start s) :
    Logged envelopeId start s (startTracks (ι := ι)) := by
  have htotal : total start s = start := by rw [total, appended, h.history]; simp
  have hdropped : dropped s = [] := by rw [dropped, h.history]; rfl
  exact
    { nodup := by rw [htotal]; exact h.start_nodup
      drawn := by rw [htotal]; exact h.start_drawn
      unused := fun _ _ _ hid => by cases hid
      log := fun e he hid => by
        rw [htotal, lastEvents, window_of_le h.start_length]
        exact h.log e he hid
      dropped_eq := by rw [hdropped, htotal, spilled_of_le h.start_length]
      dropped_iff := fun id => by simp [hdropped, h.reported, startTracks]
      reported_nodup := h.reported ▸ List.nodup_nil
      due_nodup := fun _ => List.nodup_nil
      due_unreported := fun _ _ hid => by cases hid
      due_apart := fun _ _ _ _ hid => by cases hid
      who := fun _ => rfl
      once := fun i => by simp [appendedBy, h.history] }

omit [DecidableEq ι] in
theorem logThread_holds (server : Server) (envelopeId : String) (who : ι) (call : LogCall ι) :
    (AppendOwn.rules envelopeId).watch.protocol.Holds (logThread server envelopeId who call)
      (fun t => Unwritten who t ∧ t.drawn = []) fun _ => Settled who := by
  cases call with
  | append input =>
    refine Protocol.Holds.mono (appendAttempts_triple input MAX_ATTEMPTS) (fun _ _ h => h.1) ?_
    rintro (e | event) t - h <;> exact h
  | write other =>
    have hwrite : (AppendOwn.rules envelopeId).watch.protocol.Triple
        (updateWithRetry server who other.purpose (fun _ purpose => purpose) envelopeId other.mutate)
        (Aside who) (fun _ => Settled who) fun _ => Settled who :=
      updateAttempts_triple other MAX_ATTEMPTS
    have hthread : (AppendOwn.rules envelopeId).watch.protocol.Triple
        ((fun _ => (none : Option EsigEvent)) <$> updateWithRetry server who other.purpose
          (fun _ purpose => purpose) envelopeId other.mutate)
        (Aside who) (fun _ => Settled who) fun _ => Settled who :=
      Triple.map (Q := fun _ => Settled who) hwrite
    refine Protocol.Holds.mono hthread (fun _ _ h => ⟨h.1.1, h.2⟩) ?_
    rintro (e | event) t - h <;> exact h

omit [DecidableEq ι] in
theorem obeyed_start (server : Server) (envelopeId : String) (calls : ι → LogCall ι) :
    (AppendOwn.rules envelopeId).watch.Obeyed
      (fun i => logThread server envelopeId i (calls i)) (fun i _ => Settled i) startTracks :=
  fun i => ⟨trivial, _, ⟨⟨⟨rfl, rfl⟩, rfl⟩, rfl⟩, logThread_holds server envelopeId i (calls i)⟩

/-- Calls whose reports are written append once, keep the end of the log, and
report what was dropped, once it is over, exactly and once. -/
theorem events_logged (server : Server) (calls : ι → LogCall ι) {s₀ : World ι}
    {threads : ι → Prog (Op ι) Res (Except Thrown (Option EsigEvent))}
    (hstart : LogStart envelopeId start s₀)
    (hrun : Run (Answered exec Reported)
      (s₀, fun i => logThread server envelopeId i (calls i)) (s, threads)) :
    (∀ i, (appendedBy i s).length ≤ 1) ∧
      (∀ e ∈ s.rows, e.id = envelopeId →
        eventsOf e = lastEvents (start ++ appended s)) ∧
      (reported envelopeId s).Nodup ∧
      (∀ id ∈ reported envelopeId s, id ∈ (dropped s).map (·.id)) ∧
      ((∀ i, ∃ r, threads i = .pure r) →
        ∀ id, id ∈ reported envelopeId s ↔ id ∈ (dropped s).map (·.id)) := by
  obtain ⟨ts, -, hlogged, hobeyed⟩ := Rules.run (fun _ _ _ _ h => h)
    (fun _ _ _ _ _ _ hbase h hexec hpermits => Logged.step hbase h hexec hpermits)
    hstart.base hstart.logged (obeyed_start server envelopeId calls) hrun
  refine ⟨fun i => (hlogged.once i).trans (by split <;> simp), hlogged.log,
    hlogged.reported_nodup, fun id hid => (hlogged.dropped_iff id).mpr (.inl hid),
    fun hreturned id => ⟨fun hid => (hlogged.dropped_iff id).mpr (.inl hid), fun hid => ?_⟩⟩
  rcases (hlogged.dropped_iff id).mp hid with hreported | ⟨i, hdue⟩
  · exact hreported
  · obtain ⟨r, hr⟩ := hreturned i
    rw [(hobeyed.finished hr).2] at hdue
    cases hdue

-- ---------------------------------------------------------------------------
-- A full log
-- ---------------------------------------------------------------------------

def failedAttempt (attempts : Nat) : EsigEvent :=
  { type := .envelope_seal_failed, envelopeId := "envelope", phase := .seal_failed,
    data := .seal_failed attempts, id := String.ofList (List.replicate attempts 'a'),
    createdAt := 0 }

def fullLog : List EsigEvent := (List.range MAX_EVENTS).map failedAttempt

/-- One envelope whose log is full. -/
def fullWorld : World Unit where
  rows := [ServiceSample.envelope { events := fullLog }]
  drawn := "envelope" :: fullLog.map (·.id)

theorem failedAttempt_id_injective : Function.Injective fun attempts => (failedAttempt attempts).id := by
  intro a b h
  have hlength := congrArg String.length h
  simpa [failedAttempt] using hlength

theorem fullWorld_start : LogStart "envelope" fullLog fullWorld where
  ids := List.nodup_singleton _
  row_drawn := by simp [fullWorld, ServiceSample.envelope]
  log_drawn e he event hevent := by
    rw [List.mem_singleton.mp he] at hevent
    exact List.mem_cons_of_mem _ (List.mem_map_of_mem hevent)
  log e he _ := by
    rw [List.mem_singleton.mp he]
    rfl
  start_drawn event hevent := List.mem_cons_of_mem _ (List.mem_map_of_mem hevent)
  start_nodup := by
    rw [fullLog, List.map_map]
    exact List.nodup_range.map failedAttempt_id_injective
  start_length := by rw [fullLog, List.length_map, List.length_range]
  history := rfl
  reported := rfl

/-- A call that appends one event and asks nothing. -/
def completion : AppendEventInput Unit where
  purpose _ := .plain
  now := now
  build e :=
    return some (e, { type := .envelope_completed, envelopeId := e.id, phase := derivePhase e })
  now_outside := now_outside
  build_outside e := .pure fun edited b h => by cases h; exact ⟨rfl, rfl, rfl, rfl⟩

def completing : World Unit × (Unit → Prog (Op Unit) Res (Except Thrown (Option EsigEvent))) :=
  (fullWorld, fun i => logThread ServiceSample.server "envelope" i (.append completion))

/-- A report is written. -/
def reportsWritten (turn : Turn) (op : Op ι) (s : World ι) : Bool :=
  turn.suits op s &&
    match op with
    | .audit entry => entry.action ≠ .events_trimmed || !turn.fails
    | _ => true

omit [DecidableEq ι] in
theorem answer_reported (turn : Turn) (op : Op ι) (s : World ι)
    (h : reportsWritten turn op s = true) :
    Answered exec Reported op s (answer turn op s).1 (answer turn op s).2 := by
  obtain ⟨hsuits, hwritten⟩ := Bool.and_eq_true_iff.mp h
  refine ⟨answer_sound turn op s hsuits, ?_⟩
  cases op with
  | audit entry =>
    intro haction
    have hfails : turn.fails = false := by simpa [haction] using hwritten
    exact congrArg Prod.fst (attempted_done hfails)
  | _ => trivial

/-- The turns of one attempt. -/
def attempt (eventId : String) (auditFails : Bool) : List (Unit × Turn) :=
  [((), {}), ((), { text := eventId }), ((), {}), ((), {}), ((), { fails := auditFails })]

theorem events_logged_full :
    let s := (turned (attempt "first" false) completing).1
    (appendedBy () s).length ≤ 1 ∧
      (∀ e ∈ s.rows, e.id = "envelope" → eventsOf e = lastEvents (fullLog ++ appended s)) ∧
      ∀ id, id ∈ reported "envelope" s ↔ id ∈ (dropped s).map (·.id) := by
  have hrun : Run (Answered exec Reported) completing (turned (attempt "first" false) completing) :=
    Schedule.run_checked answer_reported (by decide +kernel)
  have hreturned : ((turned (attempt "first" false) completing).2 ()).returned = true := by
    decide +kernel
  obtain ⟨honce, hlog, -, -, hreported⟩ :=
    events_logged ServiceSample.server (fun _ => .append completion) fullWorld_start hrun
  exact ⟨honce (), hlog, hreported fun _ => Prog.exists_of_returned hreturned⟩

/-- The last event of the log was not there before. -/
def appends (w : Write ι) : Bool :=
  (eventsOf w.new).getLast?.any fun event => event ∉ eventsOf w.old

omit [DecidableEq ι] in
theorem newEvents_length_pos {w : Write ι} (h : appends w = true) : 1 ≤ (newEvents w).length := by
  obtain ⟨event, hlast, hnew⟩ := (Option.any_eq_true _ _).mp h
  exact List.length_pos_of_mem (List.mem_filter.mpr ⟨List.mem_of_getLast? hlast, hnew⟩)

/-- Every update that appends counts. -/
theorem length_le_appendedBy {who : ι}
    (h : ∀ w ∈ s.history.filter (·.tag.who = who), appends w = true) :
    (s.history.filter (·.tag.who = who)).length ≤ (appendedBy who s).length := by
  rw [appendedBy]
  generalize s.history.filter (·.tag.who = who) = writes at h
  induction writes with
  | nil => exact Nat.zero_le _
  | cons w rest ih =>
    obtain ⟨hw, hrest⟩ := List.forall_mem_cons.mp h
    rw [List.flatMap_cons, List.length_append, List.length_cons, Nat.add_comm]
    exact Nat.add_le_add (newEvents_length_pos hw) (ih hrest)

omit [DecidableEq ι] in
theorem mem_dropped {event : EsigEvent}
    (h : ∃ w ∈ s.history, event ∈ eventsOf w.old ∧ event ∉ eventsOf w.new) : event ∈ dropped s := by
  obtain ⟨w, hw, hold, hnew⟩ := h
  exact List.mem_flatMap.mpr ⟨w, hw, List.mem_filter.mpr ⟨hold, decide_eq_true hnew⟩⟩

/-- Where the report fails once, the call appends twice and the first event that
was dropped is never reported. -/
theorem unreported_appends_twice : LogStart "envelope" fullLog completing.1 ∧
    ∃ c, Run exec completing c ∧ (c.2 ()).returned = true ∧
      ¬ (appendedBy () c.1).length ≤ 1 ∧
      ¬ ∀ id ∈ (dropped c.1).map (·.id), id ∈ reported "envelope" c.1 := by
  have hagain : ∀ w ∈ (turned (attempt "first" true ++ attempt "second" false)
      completing).1.history.filter (·.tag.who = ()), appends w = true := by decide +kernel
  have hgone : ∃ w ∈ (turned (attempt "first" true ++ attempt "second" false) completing).1.history,
      failedAttempt 0 ∈ eventsOf w.old ∧ failedAttempt 0 ∉ eventsOf w.new := by decide +kernel
  refine ⟨fullWorld_start, turned (attempt "first" true ++ attempt "second" false) completing,
    turned_run (by decide +kernel), by decide +kernel, fun honce => ?_, fun hall => ?_⟩
  · exact absurd ((length_le_appendedBy hagain).trans honce) (by decide +kernel)
  · exact absurd (hall _ (List.mem_map_of_mem (mem_dropped hgone))) (by decide +kernel)

end EsigSuite.Mcp
