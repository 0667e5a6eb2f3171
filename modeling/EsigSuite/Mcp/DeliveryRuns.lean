import EsigSuite.Lib.History
import EsigSuite.Mcp.DeliveryQueue
import Mathlib.Data.List.Nodup
import Mathlib.Logic.Relation

/-!
# Runs of the delivery queue

Whatever fails and wherever the process ends: an event that was enqueued has its
file or was accepted by the receiver, no attempt comes before the wait of a counted
failure is over, the counted failures are at most as many as the waits, and a dead
event stays dead.
-/

namespace EsigSuite.DeliveryQueue

open Lib

-- ---------------------------------------------------------------------------
-- Histories
-- ---------------------------------------------------------------------------

def Entry.id : Entry → String
  | .enqueued event => event.id
  | .unread eventId | .attempted eventId _ | .accepted eventId | .counted eventId _ _
  | .buried eventId => eventId

def Entry.counts (eventId : String) : Entry → Bool
  | .counted other _ _ => other = eventId
  | _ => false

/-- How many failures of an event were counted. -/
def countedOf (history : List Entry) (eventId : String) : Nat := history.countP (·.counts eventId)

section
variable (backoffSec : List Nat)

/-- The wait after this many counted failures, in milliseconds. -/
def waitOf (attempts : Nat) : Int := backoffSec.getD (attempts - 1) 0 * 1000

/-- What may come after these entries. -/
def Allowed (past : List Entry) : Entry → Prop
  | .attempted eventId now => .buried eventId ∉ past ∧
      ∀ attempts clock, .counted eventId attempts clock ∈ past →
        clock + waitOf backoffSec attempts ≤ now
  | .counted eventId attempts _ =>
      attempts = countedOf past eventId + 1 ∧ attempts ≤ max 1 backoffSec.length
  | _ => True

/-- Each entry was allowed after those before it. -/
def Spaced (history : List Entry) : Prop := Each (Allowed backoffSec) history

end

section
variable {backoffSec : List Nat} {history : List Entry} {eventId : String}

theorem mem_idsOf :
    eventId ∈ idsOf history ↔ ∃ event, .enqueued event ∈ history ∧ event.id = eventId := by
  simp only [idsOf, List.mem_filterMap]
  constructor
  · rintro ⟨entry, hentry, h⟩
    cases entry with
    | enqueued event => exact ⟨event, hentry, Option.some.inj h⟩
    | _ => cases h
  · rintro ⟨event, hevent, rfl⟩
    exact ⟨_, hevent, rfl⟩

@[simp] theorem countedOf_counted (attempts : Nat) (clock : Time) (other : String) :
    countedOf (.counted other attempts clock :: history) eventId =
      countedOf history eventId + if other = eventId then 1 else 0 := by
  simp [countedOf, Entry.counts, List.countP_cons]

theorem countedOf_cons {entry : Entry} (h : entry.counts eventId = false) :
    countedOf (entry :: history) eventId = countedOf history eventId := by
  simp [countedOf, List.countP_cons, h]

theorem countedOf_eq_zero (h : ∀ entry ∈ history, entry.id ≠ eventId) :
    countedOf history eventId = 0 := by
  refine List.countP_eq_zero.mpr fun entry hentry hcounts => ?_
  cases entry with
  | counted other attempts clock => exact h _ hentry (of_decide_eq_true hcounts)
  | _ => cases hcounts

theorem Spaced.countedOf_le (h : Spaced backoffSec history) :
    countedOf history eventId ≤ max 1 backoffSec.length := by
  induction history with
  | nil => simp [countedOf]
  | cons entry past ih =>
    obtain ⟨hallowed, hpast⟩ := h
    cases entry with
    | counted other attempts clock =>
      rw [countedOf_counted]
      split
      next heq =>
        obtain ⟨hattempts, hle⟩ := hallowed
        rw [← heq, ← hattempts]
        exact hle
      next => exact ih hpast
    | _ =>
      rw [countedOf_cons rfl]
      exact ih hpast

end

-- ---------------------------------------------------------------------------
-- The files of a tick
-- ---------------------------------------------------------------------------

theorem nodup_eraseDups {α : Type} [DecidableEq α] : ∀ list : List α, list.eraseDups.Nodup
  | [] => List.nodup_nil
  | x :: xs => by
    rw [List.eraseDups_cons, List.nodup_cons, List.mem_eraseDups]
    exact ⟨by simp, nodup_eraseDups _⟩
termination_by list => list.length
decreasing_by exact Nat.lt_succ_of_le (List.length_filter_le _ _)

theorem oldest_mem {list : List QueueFile} {file : QueueFile} (h : oldest list = some file) :
    file ∈ list :=
  List.mem_mergeSort.mp (List.mem_of_mem_head? h)

theorem oldest_le {list : List QueueFile} {file other : QueueFile} (h : oldest list = some file)
    (hother : other ∈ list) : file.event.createdAt ≤ other.event.createdAt := by
  have htrans : ∀ a b c : QueueFile, decide (a.event.createdAt ≤ b.event.createdAt) →
      decide (b.event.createdAt ≤ c.event.createdAt) →
      decide (a.event.createdAt ≤ c.event.createdAt) := by
    intro a b c hab hbc
    exact decide_eq_true (Int.le_trans (of_decide_eq_true hab) (of_decide_eq_true hbc))
  have htotal : ∀ a b : QueueFile, (decide (a.event.createdAt ≤ b.event.createdAt) ||
      decide (b.event.createdAt ≤ a.event.createdAt)) := by
    intro a b
    simpa using Int.le_total a.event.createdAt b.event.createdAt
  have hsorted := List.pairwise_mergeSort htrans htotal list
  have hmem : other ∈ list.mergeSort fun a b => decide (a.event.createdAt ≤ b.event.createdAt) :=
    List.mem_mergeSort.mpr hother
  unfold oldest at h
  cases hlist : list.mergeSort fun a b => decide (a.event.createdAt ≤ b.event.createdAt) with
  | nil => rw [hlist] at h; cases h
  | cons first rest =>
    rw [hlist] at h hsorted hmem
    cases h
    rcases List.mem_cons.mp hmem with rfl | hrest
    · exact Int.le_refl _
    · exact of_decide_eq_true ((List.pairwise_cons.mp hsorted).1 _ hrest)

section
variable {files : List QueueFile} {file other : QueueFile}

theorem mem_headsOf (h : file ∈ headsOf files) : file ∈ files ∧ file.status = .pending := by
  obtain ⟨envelopeId, -, holdest⟩ := List.mem_filterMap.mp h
  have hmem := List.mem_of_mem_filter (oldest_mem holdest)
  simpa using hmem

/-- A head is the oldest of its envelope. -/
theorem headsOf_le (h : file ∈ headsOf files) (hother : other ∈ files)
    (hpending : other.status = .pending)
    (hsame : other.event.envelopeId = file.event.envelopeId) :
    file.event.createdAt ≤ other.event.createdAt := by
  obtain ⟨envelopeId, -, holdest⟩ := List.mem_filterMap.mp h
  have hfile := List.mem_filter.mp (oldest_mem holdest)
  refine oldest_le holdest (List.mem_filter.mpr ⟨?_, ?_⟩)
  · exact List.mem_filter.mpr ⟨hother, decide_eq_true hpending⟩
  · rw [hsame]
    exact hfile.2

/-- No two heads are of one envelope. -/
theorem headsOf_apart (files : List QueueFile) :
    (headsOf files).Pairwise fun a b => a.event.envelopeId ≠ b.event.envelopeId := by
  refine List.Pairwise.filterMap _ ?_ (nodup_eraseDups _)
  intro a b hne x hx y hy heq
  have hxa := (List.mem_filter.mp (oldest_mem hx)).2
  have hyb := (List.mem_filter.mp (oldest_mem hy)).2
  rw [decide_eq_true_eq] at hxa hyb
  exact hne (hxa.symm.trans (heq.trans hyb))

end

-- ---------------------------------------------------------------------------
-- What the files say of the history
-- ---------------------------------------------------------------------------

/-- The files and the receipts agree with what has happened. -/
structure Books (backoffSec : List Nat) (disk : Disk) (history : List Entry) : Prop where
  keyed : ∀ eventId file, disk.queue eventId = some file →
    file.event.id = eventId ∧ .enqueued file.event ∈ history
  once : (idsOf history).Nodup
  known : ∀ entry ∈ history, entry.id ∈ idsOf history
  kept : ∀ event, .enqueued event ∈ history →
    (∃ file, disk.queue event.id = some file ∧ file.event = event) ∨ .accepted event.id ∈ history
  count : ∀ eventId file, disk.queue eventId = some file →
    file.attempts = countedOf history eventId
  room : ∀ eventId file, disk.queue eventId = some file → file.status = .pending →
    file.attempts = 0 ∨ file.attempts < backoffSec.length
  due : ∀ eventId file, disk.queue eventId = some file → file.status = .pending →
    ∀ attempts clock, .counted eventId attempts clock ∈ history →
      clock + waitOf backoffSec attempts ≤ file.nextAt
  dead : ∀ eventId, .buried eventId ∈ history ↔
    ∃ file, disk.queue eventId = some file ∧ file.status = .dead
  receipts : ∀ eventId receipt, disk.delivered eventId = some receipt →
    .accepted eventId ∈ history
  spaced : Spaced backoffSec history

/-- Entries that change no file. -/
inductive Entry.Noted : Entry → Prop
  | unread (eventId : String) : Noted (.unread eventId)
  | attempted (eventId : String) (now : Time) : Noted (.attempted eventId now)
  | accepted (eventId : String) : Noted (.accepted eventId)

section
variable {backoffSec : List Nat} {disk : Disk} {history : List Entry} {entry : Entry}
  {data : QueueFile}

theorem Books.empty : Books backoffSec .empty [] where
  keyed _ _ h := by cases h
  once := List.nodup_nil
  known _ h := by cases h
  kept _ h := by cases h
  count _ _ h := by cases h
  room _ _ h := by cases h
  due _ _ h := by cases h
  dead _ := ⟨fun h => (by cases h), by rintro ⟨_, h, -⟩; cases h⟩
  receipts _ _ h := by cases h
  spaced := trivial

theorem Entry.Noted.old {other : Entry} (h : entry.Noted) (hother : ¬ other.Noted)
    (hmem : other ∈ entry :: history) : other ∈ history := by
  rcases List.mem_cons.mp hmem with rfl | hmem
  · exact absurd h hother
  · exact hmem

theorem Books.note (hbooks : Books backoffSec disk history) (hnoted : entry.Noted)
    (hid : entry.id ∈ idsOf history) (hallowed : Allowed backoffSec history entry) :
    Books backoffSec disk (entry :: history) := by
  have hids : idsOf (entry :: history) = idsOf history := by cases hnoted <;> rfl
  have hcount : ∀ eventId, countedOf (entry :: history) eventId = countedOf history eventId :=
    fun eventId => countedOf_cons (by cases hnoted <;> rfl)
  constructor
  · intro eventId file hfile
    obtain ⟨hkey, hevent⟩ := hbooks.keyed eventId file hfile
    exact ⟨hkey, List.mem_cons_of_mem _ hevent⟩
  · rw [hids]
    exact hbooks.once
  · intro other hother
    rw [hids]
    rcases List.mem_cons.mp hother with rfl | hother
    · exact hid
    · exact hbooks.known other hother
  · intro event hevent
    refine (hbooks.kept event (hnoted.old (fun h => by cases h) hevent)).imp_right fun h => ?_
    exact List.mem_cons_of_mem _ h
  · intro eventId file hfile
    rw [hcount]
    exact hbooks.count eventId file hfile
  · exact hbooks.room
  · intro eventId file hfile hpending attempts clock hcounted
    exact hbooks.due eventId file hfile hpending attempts clock
      (hnoted.old (fun h => by cases h) hcounted)
  · intro eventId
    rw [← hbooks.dead eventId]
    exact ⟨hnoted.old fun h => (by cases h), List.mem_cons_of_mem _⟩
  · intro eventId receipt hreceipt
    exact List.mem_cons_of_mem _ (hbooks.receipts eventId receipt hreceipt)
  · exact ⟨hallowed, hbooks.spaced⟩

/-- Nothing has happened to an event that was not enqueued. -/
theorem Books.fresh (hbooks : Books backoffSec disk history) {event : EsigEvent}
    (hfresh : event.id ∉ idsOf history) : ∀ other ∈ history, other.id ≠ event.id :=
  fun other hother heq => hfresh (heq ▸ hbooks.known other hother)

theorem Books.enqueue (hbooks : Books backoffSec disk history) {event : EsigEvent}
    (hfresh : event.id ∉ idsOf history) (nextAt : Time) :
    Books backoffSec (disk.write ⟨event, 0, nextAt, .pending⟩) (.enqueued event :: history) := by
  have hnew := hbooks.fresh hfresh
  have hcount : ∀ eventId,
      countedOf (.enqueued event :: history) eventId = countedOf history eventId :=
    fun eventId => countedOf_cons rfl
  have hcounted : ∀ {eventId attempts clock},
      Entry.counted eventId attempts clock ∈ Entry.enqueued event :: history →
        .counted eventId attempts clock ∈ history := by
    intro eventId attempts clock h
    simpa using h
  have hfile : ∀ {eventId file},
      (disk.write ⟨event, 0, nextAt, .pending⟩).queue eventId = some file →
      eventId = event.id ∧ file = ⟨event, 0, nextAt, .pending⟩ ∨
        eventId ≠ event.id ∧ disk.queue eventId = some file := by
    intro eventId file h
    by_cases heq : eventId = event.id
    · subst heq
      rw [Disk.queue_write_self] at h
      exact .inl ⟨rfl, (Option.some.inj h).symm⟩
    · rw [Disk.queue_write_of_ne heq] at h
      exact .inr ⟨heq, h⟩
  constructor
  · intro eventId file h
    rcases hfile h with ⟨rfl, rfl⟩ | ⟨-, hold⟩
    · exact ⟨rfl, List.mem_cons_self⟩
    · obtain ⟨hkey, hevent⟩ := hbooks.keyed eventId file hold
      exact ⟨hkey, List.mem_cons_of_mem _ hevent⟩
  · exact List.nodup_cons.mpr ⟨hfresh, hbooks.once⟩
  · intro other hother
    rcases List.mem_cons.mp hother with rfl | hother
    · exact List.mem_cons_self
    · exact List.mem_cons_of_mem _ (hbooks.known other hother)
  · intro other hother
    rcases List.mem_cons.mp hother with heq | hother
    · cases heq
      exact .inl ⟨_, Disk.queue_write_self, rfl⟩
    · have hne : other.id ≠ event.id := hnew _ hother
      rw [Disk.queue_write_of_ne hne]
      exact (hbooks.kept other hother).imp_right (List.mem_cons_of_mem _)
  · intro eventId file h
    rw [hcount]
    rcases hfile h with ⟨rfl, rfl⟩ | ⟨-, hold⟩
    · exact (countedOf_eq_zero hnew).symm
    · exact hbooks.count eventId file hold
  · intro eventId file h hpending
    rcases hfile h with ⟨rfl, rfl⟩ | ⟨-, hold⟩
    · exact .inl rfl
    · exact hbooks.room eventId file hold hpending
  · intro eventId file h hpending attempts clock hmem
    rcases hfile h with ⟨rfl, rfl⟩ | ⟨-, hold⟩
    · exact absurd rfl (hnew _ (hcounted hmem))
    · exact hbooks.due eventId file hold hpending attempts clock (hcounted hmem)
  · intro eventId
    constructor
    · intro hburied
      have hburied : Entry.buried eventId ∈ history := by simpa using hburied
      rw [Disk.queue_write_of_ne (hnew _ hburied)]
      exact (hbooks.dead eventId).mp hburied
    · rintro ⟨file, h, hdead⟩
      rcases hfile h with ⟨rfl, rfl⟩ | ⟨-, hold⟩
      · cases hdead
      · exact List.mem_cons_of_mem _ ((hbooks.dead eventId).mpr ⟨file, hold, hdead⟩)
  · intro eventId receipt hreceipt
    exact List.mem_cons_of_mem _ (hbooks.receipts eventId receipt hreceipt)
  · exact ⟨trivial, hbooks.spaced⟩

/-- The file of an accepted event is removed. -/
theorem Books.rm (hbooks : Books backoffSec disk history)
    (hqueue : disk.queue data.event.id = some data) (hpending : data.status = .pending)
    (haccepted : .accepted data.event.id ∈ history) :
    Books backoffSec (disk.rm data.event.id) history := by
  constructor
  · exact fun eventId file h => hbooks.keyed eventId file (Disk.of_queue_rm h).2
  · exact hbooks.once
  · exact hbooks.known
  · intro event hevent
    by_cases heq : event.id = data.event.id
    · exact .inr (heq ▸ haccepted)
    · rw [Disk.queue_rm_of_ne heq]
      exact hbooks.kept event hevent
  · exact fun eventId file h => hbooks.count eventId file (Disk.of_queue_rm h).2
  · exact fun eventId file h => hbooks.room eventId file (Disk.of_queue_rm h).2
  · exact fun eventId file h => hbooks.due eventId file (Disk.of_queue_rm h).2
  · intro eventId
    rw [hbooks.dead eventId]
    constructor
    · rintro ⟨file, h, hdead⟩
      have hne : eventId ≠ data.event.id := by
        rintro rfl
        rw [hqueue] at h
        cases h
        rw [hpending] at hdead
        cases hdead
      exact ⟨file, (Disk.queue_rm_of_ne hne).trans h, hdead⟩
    · rintro ⟨file, h, hdead⟩
      exact ⟨file, (Disk.of_queue_rm h).2, hdead⟩
  · exact hbooks.receipts
  · exact hbooks.spaced

theorem Books.receipt (hbooks : Books backoffSec disk history) {eventId : String}
    {receipt : Option DeliveredFile} (haccepted : receipt.isSome → .accepted eventId ∈ history) :
    Books backoffSec { disk with delivered := Function.update disk.delivered eventId receipt }
      history := by
  refine { hbooks with receipts := fun other found hfound => ?_ }
  by_cases heq : other = eventId
  · subst heq
    refine haccepted ?_
    change Function.update disk.delivered other receipt other = some found at hfound
    rw [Function.update_self] at hfound
    rw [hfound]
    rfl
  · exact hbooks.receipts other found ((Function.update_of_ne heq ..).symm.trans hfound)

/-- What a failed attempt makes of its file, and whether the event is dead. -/
inductive Failed (backoffSec : List Nat) (clock : Time) (data : QueueFile) :
    QueueFile → List Entry → Prop
  | retried (again : data.attempts + 1 < backoffSec.length) :
      Failed backoffSec clock data (retried backoffSec clock data) []
  | died (last : backoffSec.length ≤ data.attempts + 1) :
      Failed backoffSec clock data (died data) [.buried data.event.id]

theorem Failed.event {clock : Time} {file : QueueFile} {extra : List Entry}
    (h : Failed backoffSec clock data file extra) : file.event = data.event := by
  cases h <;> rfl

theorem Failed.attempts {clock : Time} {file : QueueFile} {extra : List Entry}
    (h : Failed backoffSec clock data file extra) : file.attempts = data.attempts + 1 := by
  cases h <;> rfl

theorem Books.fail (hbooks : Books backoffSec disk history)
    (hqueue : disk.queue data.event.id = some data) (hpending : data.status = .pending)
    {clock : Time} (hdue : data.nextAt ≤ clock) {file : QueueFile} {extra : List Entry}
    (hfailed : Failed backoffSec clock data file extra) :
    Books backoffSec (disk.write file)
      (extra ++ .counted data.event.id (data.attempts + 1) clock :: history) := by
  have hextra : ∀ entry ∈ extra, entry = .buried data.event.id := by
    cases hfailed with
    | retried => exact fun _ h => by cases h
    | died => exact fun _ h => List.mem_singleton.mp h
  have hmem : ∀ {entry : Entry},
      entry ∈ extra ++ .counted data.event.id (data.attempts + 1) clock :: history ↔
        entry ∈ extra ∨ entry = .counted data.event.id (data.attempts + 1) clock ∨
          entry ∈ history := by
    intro entry
    rw [List.mem_append, List.mem_cons]
  have hids : idsOf (extra ++ .counted data.event.id (data.attempts + 1) clock :: history) =
      idsOf history := by
    cases hfailed <;> rfl
  have hcount : ∀ eventId,
      countedOf (extra ++ .counted data.event.id (data.attempts + 1) clock :: history) eventId =
        countedOf history eventId + if data.event.id = eventId then 1 else 0 := by
    intro eventId
    rw [← countedOf_counted (data.attempts + 1) clock]
    cases hfailed with
    | retried => rfl
    | died => exact countedOf_cons rfl
  have hid : file.event.id = data.event.id := by rw [hfailed.event]
  have hfile : ∀ {eventId found}, (disk.write file).queue eventId = some found →
      eventId = data.event.id ∧ found = file ∨
        eventId ≠ data.event.id ∧ disk.queue eventId = some found := by
    intro eventId found h
    by_cases heq : eventId = data.event.id
    · rw [heq, ← hid, Disk.queue_write_self] at h
      exact .inl ⟨heq, (Option.some.inj h).symm⟩
    · rw [Disk.queue_write_of_ne (hid ▸ heq)] at h
      exact .inr ⟨heq, h⟩
  constructor
  · intro eventId found h
    rcases hfile h with ⟨rfl, rfl⟩ | ⟨-, hold⟩
    · obtain ⟨-, hevent⟩ := hbooks.keyed _ _ hqueue
      rw [hfailed.event]
      exact ⟨rfl, hmem.mpr (.inr (.inr hevent))⟩
    · obtain ⟨hkey, hevent⟩ := hbooks.keyed eventId found hold
      exact ⟨hkey, hmem.mpr (.inr (.inr hevent))⟩
  · rw [hids]
    exact hbooks.once
  · intro entry hentry
    rw [hids]
    rcases hmem.mp hentry with hentry | rfl | hentry
    · rw [hextra entry hentry]
      exact mem_idsOf.mpr ⟨data.event, (hbooks.keyed _ _ hqueue).2, rfl⟩
    · exact mem_idsOf.mpr ⟨data.event, (hbooks.keyed _ _ hqueue).2, rfl⟩
    · exact hbooks.known entry hentry
  · intro event hevent
    rcases hmem.mp hevent with hevent | hevent | hevent
    · cases hextra _ hevent
    · cases hevent
    rcases hbooks.kept event hevent with ⟨found, hfound, hsame⟩ | haccepted
    · by_cases heq : event.id = data.event.id
      · rw [heq, hqueue] at hfound
        cases hfound
        refine .inl ⟨file, ?_, hfailed.event.trans hsame⟩
        rw [heq, ← hid, Disk.queue_write_self]
      · exact .inl ⟨found, (Disk.queue_write_of_ne (hid ▸ heq)).trans hfound, hsame⟩
    · exact .inr (hmem.mpr (.inr (.inr haccepted)))
  · intro eventId found h
    rw [hcount]
    rcases hfile h with ⟨rfl, rfl⟩ | ⟨hne, hold⟩
    · rw [if_pos rfl, hfailed.attempts, hbooks.count _ _ hqueue]
    · rw [if_neg (Ne.symm hne)]
      exact hbooks.count eventId found hold
  · intro eventId found h hstatus
    rcases hfile h with ⟨rfl, rfl⟩ | ⟨-, hold⟩
    · cases hfailed with
      | retried again => exact .inr again
      | died last => cases hstatus
    · exact hbooks.room eventId found hold hstatus
  · intro eventId found h hstatus attempts at_ hcounted
    rcases hfile h with ⟨rfl, rfl⟩ | ⟨hne, hold⟩
    · cases hfailed with
      | died last => cases hstatus
      | retried again =>
        have hwait : (0 : Int) ≤ backoffSec.getD data.attempts 0 * 1000 := by omega
        rcases hmem.mp hcounted with hcounted | hcounted | hcounted
        · cases hcounted
        · cases hcounted
          exact Int.le_refl _
        · have hbefore := hbooks.due _ _ hqueue hpending attempts at_ hcounted
          exact Int.le_trans (Int.le_trans hbefore hdue) (Int.le_add_of_nonneg_right hwait)
    · rcases hmem.mp hcounted with hcounted | hcounted | hcounted
      · cases hextra _ hcounted
      · cases hcounted
        exact absurd rfl hne
      · exact hbooks.due eventId found hold hstatus attempts at_ hcounted
  · intro eventId
    by_cases heq : eventId = data.event.id
    · subst heq
      have hstored : (disk.write file).queue data.event.id = some file := by
        rw [← hid, Disk.queue_write_self]
      have halive : Entry.buried data.event.id ∉ history := by
        intro hburied
        obtain ⟨found, hfound, hdead⟩ := (hbooks.dead _).mp hburied
        rw [hqueue] at hfound
        cases hfound
        rw [hpending] at hdead
        cases hdead
      cases hfailed with
      | retried again =>
        constructor
        · intro hburied
          exact absurd (by simpa using hburied) halive
        · rintro ⟨found, hfound, hdead⟩
          rw [hstored] at hfound
          cases hfound
          cases hdead
      | died last => exact ⟨fun _ => ⟨_, hstored, rfl⟩, fun _ => List.mem_cons_self⟩
    · rw [Disk.queue_write_of_ne (hid ▸ heq), ← hbooks.dead eventId, hmem]
      constructor
      · rintro (hburied | hburied | hburied)
        · cases hextra _ hburied
          exact absurd rfl heq
        · cases hburied
        · exact hburied
      · exact fun h => .inr (.inr h)
  · intro eventId receipt hreceipt
    exact hmem.mpr (.inr (.inr (hbooks.receipts eventId receipt hreceipt)))
  · have hcounted : Spaced backoffSec
        (.counted data.event.id (data.attempts + 1) clock :: history) := by
      refine ⟨⟨by rw [hbooks.count _ _ hqueue], ?_⟩, hbooks.spaced⟩
      rcases hbooks.room _ _ hqueue hpending with hzero | hlt
      · rw [hzero]
        exact Nat.le_max_left ..
      · exact Nat.le_trans hlt (Nat.le_max_right ..)
    cases hfailed with
    | retried => exact hcounted
    | died => exact ⟨trivial, hcounted⟩

end

-- ---------------------------------------------------------------------------
-- What a tick holds
-- ---------------------------------------------------------------------------

/-- The files that a tick has read and may still write. -/
def Tick.files : Tick → List QueueFile
  | .reading _ out => out
  | .working _ heads | .buried _ _ heads => heads
  | .sending _ data heads | .sent _ _ data heads | .receipted _ data heads
  | .failed _ data heads => data :: heads
  | .idle | .pruning _ _ => []

/-- Those that are grouped by their envelopes. -/
def Tick.heads : Tick → List QueueFile
  | .reading _ _ => []
  | tick => tick.files

theorem Tick.heads_subset (tick : Tick) : tick.heads ⊆ tick.files := by
  cases tick <;> simp [heads]

def Tick.attempting : Tick → Option QueueFile
  | .sending _ data _ | .sent _ _ data _ | .receipted _ data _ | .failed _ data _ => some data
  | _ => none

def Tick.answered : Tick → Option String
  | .sent _ _ data _ | .receipted _ data _ => some data.event.id
  | _ => none

def Tick.now : Tick → Option Time
  | .working now _ | .sending now _ _ | .sent now _ _ _ | .receipted now _ _ | .failed now _ _
  | .buried now _ _ => some now
  | _ => none

/-- The names that are left to read. -/
def Tick.names : Tick → List String
  | .reading names _ => names
  | _ => []

structure Holds (world : World) : Prop where
  listed : ∀ eventId ∈ world.tick.names, eventId ∈ idsOf world.history
  stored : ∀ data ∈ world.tick.files, world.disk.queue data.event.id = some data
  pending : ∀ data ∈ world.tick.heads, data.status = .pending
  apart : world.tick.heads.Pairwise fun a b => a.event.envelopeId ≠ b.event.envelopeId
  due : ∀ data, world.tick.attempting = some data → data.nextAt ≤ world.clock
  answered : ∀ eventId, world.tick.answered = some eventId → .accepted eventId ∈ world.history
  begun : ∀ now, world.tick.now = some now → now ≤ world.clock

structure World.Ok (backoffSec : List Nat) (world : World) : Prop where
  books : Books backoffSec world.disk world.history
  holds : Holds world

section
variable {backoffSec : List Nat} {disk disk' : Disk} {tick tick' : Tick} {clock now : Time}
  {history history' : List Entry} {data : QueueFile} {heads : List QueueFile} {world world' : World}

/-- A tick goes on with what it holds. -/
theorem Holds.keep (h : Holds ⟨disk, tick, clock, history⟩)
    (hqueue : ∀ data ∈ tick'.files, disk'.queue data.event.id = disk.queue data.event.id)
    (hfiles : tick'.files ⊆ tick.files) (hheads : tick'.heads.Sublist tick.heads)
    (hdue : ∀ data, tick'.attempting = some data →
      tick.attempting = some data ∨ data.nextAt ≤ clock)
    (hanswered : ∀ eventId, tick'.answered = some eventId → .accepted eventId ∈ history')
    (hbegun : ∀ now, tick'.now = some now → tick.now = some now)
    (hlisted : ∀ eventId ∈ tick'.names, eventId ∈ idsOf history') :
    Holds ⟨disk', tick', clock, history'⟩ where
  listed := hlisted
  stored data hdata := (hqueue data hdata).trans (h.stored data (hfiles hdata))
  pending data hdata := h.pending data (hheads.subset hdata)
  apart := h.apart.sublist hheads
  due data hdata := (hdue data hdata).elim (h.due data) fun hdue => hdue
  answered := hanswered
  begun now hnow := h.begun now (hbegun now hnow)

/-- The other heads are of other events. -/
theorem Holds.others (h : Holds ⟨disk, tick, clock, history⟩) (hfiles : tick.files = data :: heads)
    (hheads : tick.heads = data :: heads) : ∀ other ∈ heads, other.event.id ≠ data.event.id := by
  intro other hother heq
  have hapart := h.apart
  rw [hheads, List.pairwise_cons] at hapart
  have hstored := h.stored other (hfiles ▸ List.mem_cons_of_mem _ hother)
  rw [heq, h.stored data (hfiles ▸ List.mem_cons_self)] at hstored
  cases hstored
  exact hapart.1 data hother rfl

theorem Holds.known (hbooks : Books backoffSec disk history)
    (h : Holds ⟨disk, tick, clock, history⟩) (hdata : data ∈ tick.files) :
    .enqueued data.event ∈ history :=
  (hbooks.keyed _ _ (h.stored data hdata)).2

theorem Books.ne_of_fresh (hbooks : Books backoffSec disk history) {event : EsigEvent}
    (hfresh : event.id ∉ idsOf history) {eventId : String} {file : QueueFile}
    (hfile : disk.queue eventId = some file) : eventId ≠ event.id := by
  rintro rfl
  obtain ⟨hkey, hevent⟩ := hbooks.keyed _ _ hfile
  exact hfresh (mem_idsOf.mpr ⟨_, hevent, hkey⟩)

theorem Holds.idle : Holds ⟨disk, .idle, clock, history⟩ where
  listed _ h := by cases h
  stored _ h := by cases h
  pending _ h := by cases h
  apart := .nil
  due _ h := by cases h
  answered _ h := by cases h
  begun _ h := by cases h

theorem Holds.pruning {names : List String} :
    Holds ⟨disk, .pruning now names, clock, history⟩ where
  listed _ h := by cases h
  stored _ h := by cases h
  pending _ h := by cases h
  apart := .nil
  due _ h := by cases h
  answered _ h := by cases h
  begun _ h := by cases h

theorem World.Ok.start (clock : Time) : World.Ok backoffSec (.start clock) where
  books := .empty
  holds := .idle

/-- A tick goes on with some of its heads and a file that it attempts no more. -/
theorem Holds.rest (h : Holds ⟨disk, tick, clock, history⟩) (hfiles : heads ⊆ tick.files)
    (hheads : heads.Sublist tick.heads) (hnow : tick.now = some now)
    (hqueue : ∀ data ∈ heads, disk'.queue data.event.id = disk.queue data.event.id) :
    Holds ⟨disk', .working now heads, clock, history'⟩ := by
  refine h.keep hqueue hfiles hheads (fun _ h => by cases h) (fun _ h => by cases h)
    (fun _ h => ?_) fun _ h => by cases h
  exact hnow.trans h

theorem World.Ok.step (h : World.Ok backoffSec world) (hstep : Step backoffSec world world') :
    World.Ok backoffSec world' := by
  obtain ⟨hbooks, hholds⟩ := h
  cases hstep with
  | enqueue event fresh nextAt drawn =>
    refine ⟨hbooks.enqueue fresh nextAt, ?_⟩
    refine hholds.keep (fun data hdata => ?_) (List.Subset.refl _)
      (List.Sublist.refl _) (fun data hdata => .inl hdata) (fun eventId hanswered => ?_)
      (fun now hnow => hnow) fun eventId hlisted => ?_
    · exact Disk.queue_write_of_ne (hbooks.ne_of_fresh fresh (hholds.stored data hdata))
    · exact List.mem_cons_of_mem _ (hholds.answered eventId hanswered)
    · exact List.mem_cons_of_mem _ (hholds.listed eventId hlisted)
  | pass clock later =>
    refine ⟨hbooks, hholds.listed, hholds.stored, hholds.pending, hholds.apart,
      fun data hdata => ?_, hholds.answered, fun now hnow => ?_⟩
    · exact Int.le_trans (hholds.due data hdata) later
    · exact Int.le_trans (hholds.begun now hnow) later
  | stop => exact ⟨hbooks, .idle⟩
  | list names nodup all =>
    refine ⟨hbooks, { Holds.idle with listed := fun eventId hname => ?_ }⟩
    obtain ⟨file, hfile⟩ := Option.isSome_iff_exists.mp ((all eventId).mp hname)
    obtain ⟨hkey, hevent⟩ := hbooks.keyed _ _ hfile
    exact mem_idsOf.mpr ⟨_, hevent, hkey⟩
  | read found =>
    refine ⟨hbooks, fun other hother => hholds.listed other (List.mem_cons_of_mem _ hother),
      fun file hfile => ?_, hholds.pending, hholds.apart, hholds.due, hholds.answered,
      hholds.begun⟩
    rcases List.mem_append.mp hfile with hfile | hfile
    · exact hholds.stored file hfile
    · rw [List.mem_singleton.mp hfile, (hbooks.keyed _ _ found).1]
      exact found
  | unread =>
    refine ⟨hbooks.note (.unread _) (hholds.listed _ List.mem_cons_self) trivial, ?_⟩
    exact hholds.keep (fun _ _ => rfl) (List.Subset.refl _)
      (List.Sublist.refl _) (fun _ h => .inl h) (fun _ h => by cases h) (fun _ h => h)
      fun other hother => hholds.listed other (List.mem_cons_of_mem _ hother)
  | grouped =>
    refine ⟨hbooks, fun _ h => (by cases h), fun data hdata => ?_, fun data hdata => ?_,
      headsOf_apart _, fun _ h => (by cases h), fun _ h => (by cases h), fun now hnow => ?_⟩
    · exact hholds.stored data (mem_headsOf hdata).1
    · exact (mem_headsOf hdata).2
    · cases hnow
      exact Int.le_refl _
  | notDue early =>
    exact ⟨hbooks, hholds.rest (List.subset_cons_self _ _) (List.sublist_cons_self _ _) rfl
      fun _ _ => rfl⟩
  | attempt due =>
    have hstored := hholds.stored _ List.mem_cons_self
    have hpending := hholds.pending _ List.mem_cons_self
    refine ⟨hbooks.note (.attempted _ _) ?_ ⟨fun hburied => ?_, fun attempts at_ hcounted => ?_⟩,
      ?_⟩
    · exact mem_idsOf.mpr ⟨_, hholds.known hbooks List.mem_cons_self, rfl⟩
    · obtain ⟨file, hfile, hdead⟩ := (hbooks.dead _).mp hburied
      rw [hstored] at hfile
      cases hfile
      rw [hpending] at hdead
      cases hdead
    · exact Int.le_trans (hbooks.due _ _ hstored hpending attempts at_ hcounted) due
    · refine hholds.keep (fun _ _ => rfl) (List.Subset.refl _)
        (List.Sublist.refl _) (fun _ h => ?_) (fun _ h => by cases h) (fun _ h => h)
        fun _ h => by cases h
      cases h
      exact .inr (Int.le_trans due (hholds.begun _ rfl))
  | send =>
    refine ⟨hbooks.note (.accepted _) ?_ trivial, ?_⟩
    · exact mem_idsOf.mpr ⟨_, hholds.known hbooks List.mem_cons_self, rfl⟩
    · refine hholds.keep (fun _ _ => rfl) (List.Subset.refl _)
        (List.Sublist.refl _) (fun _ h => .inl h) (fun _ h => ?_) (fun _ h => h)
        fun _ h => by cases h
      cases h
      exact List.mem_cons_self
  | sendUnheard =>
    refine ⟨hbooks.note (.accepted _) ?_ trivial, ?_⟩
    · exact mem_idsOf.mpr ⟨_, hholds.known hbooks List.mem_cons_self, rfl⟩
    · exact hholds.keep (fun _ _ => rfl) (List.Subset.refl _)
        (List.Sublist.refl _) (fun _ h => .inl h) (fun _ h => by cases h) (fun _ h => h)
        fun _ h => by cases h
  | sendFails =>
    exact ⟨hbooks, hholds.keep (fun _ _ => rfl) (List.Subset.refl _)
      (List.Sublist.refl _) (fun _ h => .inl h) (fun _ h => by cases h) (fun _ h => h)
      fun _ h => by cases h⟩
  | receipt =>
    refine ⟨hbooks.receipt fun _ => hholds.answered _ rfl, ?_⟩
    exact hholds.keep (fun _ _ => rfl) (List.Subset.refl _)
      (List.Sublist.refl _) (fun _ h => .inl h) hholds.answered (fun _ h => h) fun _ h => by cases h
  | receiptFails =>
    exact ⟨hbooks, hholds.keep (fun _ _ => rfl) (List.Subset.refl _)
      (List.Sublist.refl _) (fun _ h => .inl h) (fun _ h => by cases h) (fun _ h => h)
      fun _ h => by cases h⟩
  | rm =>
    refine ⟨hbooks.rm (hholds.stored _ List.mem_cons_self) (hholds.pending _ List.mem_cons_self)
      (hholds.answered _ rfl), ?_⟩
    exact hholds.rest (List.subset_cons_self _ _) (List.sublist_cons_self _ _) rfl
      fun other hother =>
        Disk.queue_rm_of_ne (hholds.others rfl rfl other hother)
  | rmFails =>
    exact ⟨hbooks, hholds.keep (fun _ _ => rfl) (List.Subset.refl _)
      (List.Sublist.refl _) (fun _ h => .inl h) (fun _ h => by cases h) (fun _ h => h)
      fun _ h => by cases h⟩
  | bury last =>
    refine ⟨hbooks.fail (hholds.stored _ List.mem_cons_self) (hholds.pending _ List.mem_cons_self)
      (hholds.due _ rfl) (.died last), ?_⟩
    exact hholds.keep
      (fun other hother => Disk.queue_write_of_ne (hholds.others rfl rfl other hother))
      (List.subset_cons_self _ _) (List.sublist_cons_self _ _) (fun _ h => by cases h)
      (fun _ h => by cases h) (fun _ h => h) fun _ h => by cases h
  | retry again =>
    refine ⟨hbooks.fail (hholds.stored _ List.mem_cons_self) (hholds.pending _ List.mem_cons_self)
      (hholds.due _ rfl) (.retried again), ?_⟩
    exact hholds.rest (List.subset_cons_self _ _) (List.sublist_cons_self _ _) rfl
      fun other hother =>
        Disk.queue_write_of_ne (hholds.others rfl rfl other hother)
  | writeFails =>
    exact ⟨hbooks, hholds.rest (List.subset_cons_self _ _) (List.sublist_cons_self _ _) rfl
      fun _ _ => rfl⟩
  | audit =>
    exact ⟨{ hbooks with }, hholds.rest (List.Subset.refl _) (List.Sublist.refl _) rfl
      fun _ _ => rfl⟩
  | auditFails =>
    exact ⟨hbooks, hholds.rest (List.Subset.refl _) (List.Sublist.refl _) rfl fun _ _ => rfl⟩
  | prune names => exact ⟨hbooks, .pruning⟩
  | pruneOne receipt old past => exact ⟨hbooks.receipt (by rintro ⟨⟩), .pruning⟩
  | pruneSkip => exact ⟨hbooks, .pruning⟩
  | done => exact ⟨hbooks, .idle⟩

theorem statusOf_dead {eventId : String} :
    (∃ attempts, statusOf disk eventId = some ⟨.dead, attempts⟩) ↔
      ∃ file, disk.queue eventId = some file ∧ file.status = .dead := by
  unfold statusOf
  cases hqueue : disk.queue eventId with
  | none => cases disk.delivered eventId <;> simp
  | some file => cases hstatus : file.status <;> simp [hstatus]

theorem statusOf_delivered {eventId : String} {attempts : Nat}
    (h : statusOf disk eventId = some ⟨.delivered, attempts⟩) :
    ∃ receipt, disk.delivered eventId = some receipt := by
  unfold statusOf at h
  cases hqueue : disk.queue eventId with
  | some file => cases hstatus : file.status <;> simp [hqueue, hstatus] at h
  | none =>
    cases hdelivered : disk.delivered eventId with
    | none => simp [hqueue, hdelivered] at h
    | some receipt => exact ⟨receipt, rfl⟩

theorem World.Ok.run (hrun : Relation.ReflTransGen (Step backoffSec) (.start clock) world) :
    World.Ok backoffSec world := by
  induction hrun with
  | refl => exact .start clock
  | tail _ hstep ih => exact ih.step hstep

/-- In every run an event has its file or was accepted; an attempt is of an event that
is not dead, once the waits of its counted failures are over; no more failures are
counted than there are waits; a dead event stays dead, and one that counts as
delivered was accepted. -/
theorem deliveries_sound
    (hrun : Relation.ReflTransGen (Step backoffSec) (.start clock) world) :
    (∀ event, .enqueued event ∈ world.history →
      (∃ file, world.disk.queue event.id = some file ∧ file.event = event) ∨
        .accepted event.id ∈ world.history) ∧
    (∀ later eventId now past, world.history = later ++ .attempted eventId now :: past →
      .buried eventId ∉ past ∧
        ∀ attempts clock, .counted eventId attempts clock ∈ past →
          clock + waitOf backoffSec attempts ≤ now) ∧
    (∀ eventId, countedOf world.history eventId ≤ max 1 backoffSec.length) ∧
    (∀ eventId, .buried eventId ∈ world.history ↔
      ∃ attempts, statusOf world.disk eventId = some ⟨.dead, attempts⟩) ∧
    ∀ eventId attempts, statusOf world.disk eventId = some ⟨.delivered, attempts⟩ →
      .accepted eventId ∈ world.history := by
  obtain ⟨hbooks, -⟩ := World.Ok.run hrun
  refine ⟨hbooks.kept, fun later eventId now past hhistory => ?_,
    fun _ => hbooks.spaced.countedOf_le, fun eventId => ?_, fun eventId attempts hstatus => ?_⟩
  · exact Each.split (hhistory ▸ hbooks.spaced)
  · rw [hbooks.dead eventId, statusOf_dead]
  · obtain ⟨receipt, hreceipt⟩ := statusOf_delivered hstatus
    exact hbooks.receipts eventId receipt hreceipt

end

-- ---------------------------------------------------------------------------
-- A run
-- ---------------------------------------------------------------------------

namespace Sample

def backoffSec : List Nat := [60, 120]

def first : EsigEvent :=
  { type := .envelope_completed, envelopeId := "env_1", phase := .awaiting_seal, id := "evt_1",
    createdAt := 0 }

def second : EsigEvent :=
  { type := .envelope_sealed, envelopeId := "env_1", phase := .sealed, id := "evt_2",
    createdAt := 60000 }

def queued : QueueFile := ⟨first, 0, 0, .pending⟩

def failedOnce : QueueFile := retried backoffSec 0 queued

def next : QueueFile := ⟨second, 0, 60000, .pending⟩

/-- The second event is enqueued while the first one is sent again. -/
def history : List Entry :=
  [.accepted "evt_1", .enqueued second, .attempted "evt_1" 60000, .counted "evt_1" 1 0,
    .attempted "evt_1" 0, .enqueued first]

def disk : Disk :=
  let sent := ((Disk.empty.write queued).write failedOnce).write next
  Disk.rm { sent with delivered := Function.update sent.delivered "evt_1" (some ⟨first, 2, 60000⟩) }
    "evt_1"

def world : World := ⟨disk, .sending 60000 next [], 60000, .attempted "evt_2" 60000 :: history⟩

theorem headsOf_singleton (file : QueueFile) (h : file.status = .pending) :
    headsOf [file] = [file] := by
  simp [headsOf, envelopeIds, oldest, h, List.eraseDups_cons, List.filter_cons]

theorem listed {disk : Disk} {eventId : String} (h : (disk.queue eventId).isSome)
    (hother : ∀ other, other ≠ eventId → disk.queue other = none) (other : String) :
    other ∈ [eventId] ↔ (disk.queue other).isSome := by
  by_cases heq : other = eventId
  · simp [heq, h]
  · simp [heq, hother other heq]

theorem queue_apart {eventId : String} (hfirst : eventId ≠ "evt_1") (hsecond : eventId ≠ "evt_2") :
    disk.queue eventId = none := by
  simp [disk, Disk.rm, Disk.write, failedOnce, retried, queued, next, first, second, hfirst,
    hsecond, Disk.empty]

theorem run : Relation.ReflTransGen (Step backoffSec) (.start 0) world := by
  have honly : ∀ other, other ≠ "evt_1" →
      ((Disk.empty.write queued).write failedOnce).queue other = none := by
    intro other hne
    simp [Disk.write, failedOnce, retried, queued, first, hne, Disk.empty]
  have hnext : ∀ other, other ≠ "evt_2" → disk.queue other = none := by
    intro other hne
    by_cases heq : other = "evt_1"
    · simp [disk, heq]
    · exact queue_apart heq hne
  refine .head (.enqueue first List.not_mem_nil 0 (Int.le_refl _)) ?_
  refine .head (.list ["evt_1"] (List.nodup_singleton _) (listed rfl fun other hne => ?_)) ?_
  · exact Disk.queue_write_of_ne hne
  refine .head (.read Disk.queue_write_self) (.head .grouped ?_)
  rw [List.nil_append, headsOf_singleton _ rfl]
  refine .head (.attempt (Int.le_refl _)) (.head .sendFails (.head (.retry (by decide)) ?_))
  refine .head (.prune []) (.head .done (.head (.pass 60000 (by decide)) ?_))
  refine .head (.list ["evt_1"] (List.nodup_singleton _) (listed rfl honly)) ?_
  refine .head (.read Disk.queue_write_self) (.head .grouped ?_)
  rw [List.nil_append, headsOf_singleton _ rfl]
  refine .head (.attempt (by decide)) (.head (.enqueue second (by decide) 60000 (Int.le_refl _)) ?_)
  refine .head .send (.head .receipt (.head .rm (.head (.prune []) (.head .done ?_))))
  refine .head (.list ["evt_2"] (List.nodup_singleton _) (listed rfl hnext)) ?_
  refine .head (.read rfl) (.head .grouped ?_)
  rw [List.nil_append, headsOf_singleton _ rfl]
  exact .single (.attempt (Int.le_refl _))

end Sample

theorem deliveries_sound_retry :
    .buried "evt_1" ∉ Sample.history.drop 3 ∧
      ∀ attempts clock, .counted "evt_1" attempts clock ∈ Sample.history.drop 3 →
        clock + waitOf Sample.backoffSec attempts ≤ 60000 :=
  (deliveries_sound Sample.run).2.1 (.attempted "evt_2" 60000 :: Sample.history.take 2) _ _ _ rfl

end EsigSuite.DeliveryQueue
