import EsigSuite.Mcp.ServiceThreads
import EsigSuite.Mcp.ServiceSchedule

/-!
# Terminal statuses

What is completed stays so. What is voided or expired stays so, and keeps its
time, unless it is voided once more: `voidEnvelope` refuses completed envelopes
only.
-/

namespace EsigSuite.Mcp

open Lib
open EnvelopeFile (getRev setRev)

variable {ι : Type}

-- ---------------------------------------------------------------------------
-- Rewrites of a terminal envelope
-- ---------------------------------------------------------------------------

def Terminal (e : McpEnvelope) : Prop :=
  e.status = .completed ∨ e.status = .voided ∨ e.status = .expired

/-- The same envelope, with its status and when it was voided. -/
structure Absorbed (e e' : McpEnvelope) : Prop where
  id : e'.id = e.id
  tenantId : e'.tenantId = e.tenantId
  status : e'.status = e.status
  voidedAt : e'.voidedAt = e.voidedAt

theorem Terminal.not_live {e : McpEnvelope} (h : Terminal e) : e.live ≠ true := by
  intro hlive
  rcases Envelope.live_iff.mp hlive with hs | hs <;> rcases h with h | h | h <;>
    exact absurd (hs.symm.trans h) (by decide)

theorem Terminal.of_absorbed {e e' : McpEnvelope} (h : Terminal e) (habsorbed : Absorbed e e') :
    Terminal e' := by
  unfold Terminal
  rw [habsorbed.status]
  exact h

/-- Only a voiding changes the status or the time of a terminal envelope. -/
theorem Rewrite.terminal {server : Server} {e e' : McpEnvelope} {purpose : Purpose}
    (h : Rewrite server e e' purpose) (hterminal : Terminal e)
    (hvoid : purpose = .void → e.status ≠ .voided ∧ e.status ≠ .expired) :
    e'.status = e.status ∧ e'.voidedAt = e.voidedAt := by
  cases h with
  | change hlive h hpurpose => exact absurd hlive hterminal.not_live
  | void hopen voidedAt =>
    obtain ⟨hvoided, hexpired⟩ := hvoid rfl
    exact absurd (hterminal.resolve_left hopen) (not_or.mpr ⟨hvoided, hexpired⟩)
  | aside h hpurpose => exact ⟨h.status, h.voidedAt⟩
  | claim => exact ⟨rfl, rfl⟩
  | rollback => exact ⟨rfl, rfl⟩
  | persist hsent hpending hemitted links h => exact ⟨h.status, h.voidedAt⟩
  | erase left signerId h => cases signerId <;> exact ⟨h.status, h.voidedAt⟩
  | purge h => exact ⟨h.status, h.voidedAt⟩
  | expire now hcan hemitted h =>
    exact ⟨h.status.trans (hcan.resolve_left hterminal.not_live).symm, h.voidedAt⟩

-- ---------------------------------------------------------------------------
-- Runs
-- ---------------------------------------------------------------------------

/-- The stored row that an update would replace. -/
def Replaced (e cur : McpEnvelope) : Prop :=
  cur.id = e.id ∧ cur.tenantId = e.tenantId ∧ getRev cur = getRev e

instance (e cur : McpEnvelope) : Decidable (Replaced e cur) :=
  inferInstanceAs (Decidable (_ ∧ _ ∧ _))

/-- No voided or expired envelope is voided. -/
def VoidsLive : Op ι → World ι → Prop
  | .update ⟨_, .void⟩ e, s =>
    ∀ cur ∈ s.rows, Replaced e cur → cur.status ≠ .voided ∧ cur.status ≠ .expired
  | _, _ => True

instance (op : Op ι) (s : World ι) : Decidable (VoidsLive op s) := by
  unfold VoidsLive
  split <;> infer_instance

/-- The envelope is stored, as it was settled. -/
def StillTerminal (e : McpEnvelope) (s : World ι) : Prop := ∃ e' ∈ s.rows, Absorbed e e'

section
variable {server : Server} {s s' : World ι} {ts : ι → Track (Duties ι)} {i : ι} {op : Op ι}
  {r : Res op}

/-- One call. -/
theorem StillTerminal.step {e : McpEnvelope} (hterminal : Terminal e) (h : StillTerminal e s)
    (hlive : VoidsLive op s) (hstep : RowStep server (ts i) s s' op) : StillTerminal e s' := by
  obtain ⟨row, hrow, habsorbed⟩ := h
  cases hstep with
  | same hrows hhistory => exact ⟨row, hrows ▸ hrow, habsorbed⟩
  | insert e' hfresh hs' => exact ⟨row, hs' ▸ List.mem_append_left _ hrow, habsorbed⟩
  | update tag edited j cur hj hedits hwrites hs' =>
    subst hs'
    obtain ⟨k, hk, rfl⟩ := List.mem_iff_getElem.mp hrow
    by_cases hjk : j = k
    · subst hjk
      rw [List.getElem?_eq_getElem hk, Option.some.injEq] at hj
      subst hj
      have hvoid : tag.purpose = .void →
          s.rows[j].status ≠ .voided ∧ s.rows[j].status ≠ .expired := by
        obtain ⟨who, purpose⟩ := tag
        rintro rfl
        refine hlive _ hrow ⟨hedits.id.symm, hedits.tenantId.symm, ?_⟩
        rw [getRev, getRev, hedits.mcpRev]
      obtain ⟨hstatus, hvoidedAt⟩ :=
        hwrites.rewrite.terminal (hterminal.of_absorbed habsorbed) hvoid
      refine ⟨_, List.mem_set hk _, ?_⟩
      exact
        { id := hedits.id.trans habsorbed.id
          tenantId := hedits.tenantId.trans habsorbed.tenantId
          status := hstatus.trans habsorbed.status
          voidedAt := hvoidedAt.trans habsorbed.voidedAt }
    · refine ⟨s.rows[k], List.mem_iff_getElem.mpr ⟨k, by simpa using hk, ?_⟩, habsorbed⟩
      simp [hjk]

/-- Whatever is called, in any order and whatever fails: an envelope that is
completed, voided or expired keeps its status and when it was voided, as long as
no voided or expired envelope is voided. -/
theorem terminal_absorbing [DecidableEq ι] {calls : ι → Call}
    {c c' : World ι × (ι → Prog (Op ι) Res (Except Thrown Unit))} (hstart : Starts s)
    (hreached : Run (Guarded exec VoidsLive) (serve server calls s) c)
    (hlater : Run (Guarded exec VoidsLive) c c') {e : McpEnvelope} (he : e ∈ c.1.rows)
    (hterminal : Terminal e) :
    ∃ e' ∈ c'.1.rows, e'.id = e.id ∧ e'.tenantId = e.tenantId ∧ e'.status = e.status ∧
      e'.voidedAt = e.voidedAt := by
  have hbegun : Serving server (serve server calls s) started := .start hstart calls
  obtain ⟨ts, hserving, -⟩ := hbegun.rows
    (J := fun _ => True) (fun _ _ _ _ h => h.1) (fun _ _ _ _ _ _ _ _ _ _ => trivial) trivial hreached
  obtain ⟨-, -, e', he', habsorbed⟩ := hserving.rows (J := StillTerminal e)
    (fun _ _ _ _ h => h.1) (fun _ _ _ _ _ _ _ h hop hstep => h.step hterminal hop.2 hstep)
    ⟨e, he, rfl, rfl, rfl, rfl⟩ hlater
  exact ⟨e', he', habsorbed.id, habsorbed.tenantId, habsorbed.status, habsorbed.voidedAt⟩

end

-- ---------------------------------------------------------------------------
-- Voiding twice
-- ---------------------------------------------------------------------------

namespace VoidSample

open ServiceSample (server envelope)

/-- One caller voids the envelope, the other does something else. -/
def calls (other : Call) : Bool → Call
  | false => .void "envelope"
  | true => other

def start : World Bool := { rows := [envelope {}], drawn := ["envelope"] }

theorem starts : Starts start where
  ids := by decide
  row_drawn := by decide
  log_drawn := by decide

/-- A voiding at a time, with the identifier of its event. -/
def voiding (who : Bool) (time : Time) (eventId : String) : List (Bool × Turn) :=
  [(who, {}), (who, { time }), (who, {}), (who, {}), (who, {}), (who, { text := eventId }),
    (who, { time }), (who, {}), (who, { time })]

/-- A pass of the scheduler that finds nothing to do. -/
def ticking (time : Time) : List (Bool × Turn) := [(true, { time }), (true, {}), (true, {})]

def voided (other : Call) : World Bool × (Bool → Prog (Op Bool) Res (Except Thrown Unit)) :=
  turned (voiding false 5 "first") (serve ServiceSample.server (calls other) start)

end VoidSample

theorem terminal_absorbing_sample :
    let c := VoidSample.voided (.schedulerTick false)
    ∃ e ∈ c.1.rows, Terminal e ∧ ∃ e' ∈ (turned (VoidSample.ticking 200) c).1.rows,
      e'.id = e.id ∧ e'.tenantId = e.tenantId ∧ e'.status = e.status ∧ e'.voidedAt = e.voidedAt := by
  have hterminal : ∃ e ∈ (VoidSample.voided (.schedulerTick false)).1.rows, e.status = .voided := by
    decide +kernel
  obtain ⟨e, he, hvoided⟩ := hterminal
  exact ⟨e, he, .inr (.inl hvoided), terminal_absorbing VoidSample.starts
    (turned_guarded (by decide +kernel)) (turned_guarded (by decide +kernel)) he (.inr (.inl hvoided))⟩

/-- An envelope that was voided is voided again, and says so of the later time. -/
theorem voided_again : ∃ c c', Run exec
      (serve ServiceSample.server (VoidSample.calls (.void "envelope")) VoidSample.start) c ∧
    Run exec c c' ∧ (∃ e ∈ c.1.rows, Terminal e ∧ e.id = "envelope" ∧ e.voidedAt = some 5) ∧
    ∀ e ∈ c'.1.rows, e.id = "envelope" ∧ e.voidedAt = some 7 := by
  refine ⟨_, turned (VoidSample.voiding true 7 "second") (VoidSample.voided (.void "envelope")),
    turned_run (by decide +kernel), turned_run (by decide +kernel), ?_, by decide +kernel⟩
  have hvoided : ∃ e ∈ (VoidSample.voided (.void "envelope")).1.rows,
      e.status = .voided ∧ e.id = "envelope" ∧ e.voidedAt = some 5 := by decide +kernel
  obtain ⟨e, he, hstatus, hrest⟩ := hvoided
  exact ⟨e, he, .inr (.inl hstatus), hrest⟩

end EsigSuite.Mcp
