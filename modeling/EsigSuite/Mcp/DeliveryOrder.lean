import EsigSuite.Mcp.DeliveryRuns

/-!
# The order of an envelope's deliveries

Where every file could be read and the events of an envelope are enqueued in the order
of their times, none is attempted before all that were enqueued before it have been
accepted or are dead.
-/

namespace EsigSuite.DeliveryQueue

open Lib

-- ---------------------------------------------------------------------------
-- The order of an envelope's events
-- ---------------------------------------------------------------------------

/-- `a` was enqueued before `b`. -/
def Before : List Entry → EsigEvent → EsigEvent → Prop
  | [], _, _ => False
  | entry :: past, a, b => entry = .enqueued b ∧ .enqueued a ∈ past ∨ Before past a b

/-- Every file could be read, and the events of an envelope are enqueued in the order
of their times. -/
structure Orderly (history : List Entry) : Prop where
  read : ∀ eventId, .unread eventId ∉ history
  created : ∀ a b, Before history a b → a.envelopeId = b.envelopeId → a.createdAt < b.createdAt

/-- An attempt comes once the earlier events of the envelope are accepted or dead. -/
def InTurn (past : List Entry) : Entry → Prop
  | .attempted eventId _ => ∀ a b, b.id = eventId → Before past a b → a.envelopeId = b.envelopeId →
      .accepted a.id ∈ past ∨ .buried a.id ∈ past
  | _ => True

section
variable {backoffSec : List Nat} {disk disk' : Disk} {tick tick' : Tick} {clock now : Time}
  {history history' : List Entry} {entry : Entry} {a b : EsigEvent} {data : QueueFile}
  {world world' : World}

theorem Before.enqueued (h : Before history a b) :
    .enqueued a ∈ history ∧ .enqueued b ∈ history := by
  induction history with
  | nil => cases h
  | cons entry past ih =>
    rcases h with ⟨rfl, ha⟩ | h
    · exact ⟨List.mem_cons_of_mem _ ha, List.mem_cons_self⟩
    · exact ⟨List.mem_cons_of_mem _ (ih h).1, List.mem_cons_of_mem _ (ih h).2⟩

theorem Before.cons (h : Before history a b) : Before (entry :: history) a b := .inr h

theorem Before.of_cons (hentry : entry ≠ .enqueued b) (h : Before (entry :: history) a b) :
    Before history a b :=
  h.resolve_left fun h => hentry h.1

theorem Orderly.of_cons (h : Orderly (entry :: history)) : Orderly history where
  read eventId hunread := h.read eventId (List.mem_cons_of_mem _ hunread)
  created a b hbefore := h.created a b hbefore.cons

/-- An event is known by its id. -/
theorem event_eq (honce : (idsOf history).Nodup) (ha : .enqueued a ∈ history)
    (hb : .enqueued b ∈ history) (hid : a.id = b.id) : a = b := by
  induction history with
  | nil => cases ha
  | cons entry past ih =>
    have hpast : (idsOf past).Nodup := honce.sublist ((List.sublist_cons_self _ _).filterMap _)
    rcases List.mem_cons.mp ha with rfl | hpasta <;> rcases List.mem_cons.mp hb with heq | hpastb
    · cases heq
      rfl
    · exact absurd (mem_idsOf.mpr ⟨b, hpastb, hid.symm⟩) (List.nodup_cons.mp honce).1
    · cases heq
      exact absurd (mem_idsOf.mpr ⟨a, hpasta, hid⟩) (List.nodup_cons.mp honce).1
    · exact ih hpast hpasta hpastb

theorem Orderly.of_step (h : Orderly world'.history) (hstep : Step backoffSec world world') :
    Orderly world.history := by
  cases hstep with
  | bury => exact h.of_cons.of_cons
  | enqueue | unread | attempt | send | sendUnheard | retry => exact h.of_cons
  | _ => exact h

/-- What a tick has read or grouped leaves no earlier event of an envelope behind. -/
structure Ordered (world : World) : Prop where
  inTurn : Each InTurn world.history
  read : ∀ names out, world.tick = .reading names out → ∀ a b, Before world.history a b →
    (b.id ∈ names ∨ ∃ data ∈ out, data.event = b) →
      ∀ file, world.disk.queue a.id = some file → a.id ∈ names ∨ file ∈ out
  heads : ∀ data ∈ world.tick.heads, ∀ a, Before world.history a data.event →
    a.envelopeId = data.event.envelopeId →
      ∀ file, world.disk.queue a.id = some file → file.status = .dead

/-- A step that reads no file and enqueues no event. -/
theorem Ordered.keep (h : Ordered ⟨disk, tick, clock, history⟩) (hturn : Each InTurn history')
    (hbefore : ∀ a b, Before history' a b → Before history a b)
    (hread : ∀ names out, tick' ≠ .reading names out) (hheads : tick'.heads ⊆ tick.heads)
    (hqueue : ∀ data ∈ tick'.heads, ∀ a, Before history a data.event →
      a.envelopeId = data.event.envelopeId →
        ∀ file, disk'.queue a.id = some file → disk.queue a.id = some file) :
    Ordered ⟨disk', tick', now, history'⟩ where
  inTurn := hturn
  read names out htick := absurd htick (hread names out)
  heads data hdata a ha hsame file hfile :=
    h.heads data (hheads hdata) a (hbefore _ _ ha) hsame file
      (hqueue data hdata a (hbefore _ _ ha) hsame file hfile)

theorem Ordered.enqueue (hok : World.Ok backoffSec ⟨disk, tick, clock, history⟩)
    (h : Ordered ⟨disk, tick, clock, history⟩) {event : EsigEvent}
    (hfresh : event.id ∉ idsOf history) (nextAt : Time) :
    Ordered ⟨disk.write ⟨event, 0, nextAt, .pending⟩, tick, clock, .enqueued event :: history⟩ := by
  have hold : ∀ a b, b.id ∈ idsOf history → Before (.enqueued event :: history) a b →
      Before history a b := by
    intro a b hb hbefore
    refine hbefore.of_cons fun heq => hfresh ?_
    cases heq
    exact hb
  have hqueue : ∀ a b, Before history a b →
      (disk.write ⟨event, 0, nextAt, .pending⟩).queue a.id = disk.queue a.id := by
    intro a b hbefore
    exact Disk.queue_write_of_ne (hok.books.fresh hfresh _ hbefore.enqueued.1)
  have hknown : ∀ data ∈ tick.files, data.event.id ∈ idsOf history := fun data hdata =>
    mem_idsOf.mpr ⟨_, hok.holds.known hok.books hdata, rfl⟩
  refine ⟨⟨trivial, h.inTurn⟩, fun names out htick a b hbefore hb file hfile => ?_,
    fun data hdata a hbefore hsame file hfile => ?_⟩
  · cases htick
    have hbefore := hold a b (hb.elim (hok.holds.listed _) (by
      rintro ⟨data, hdata, rfl⟩
      exact hknown data hdata)) hbefore
    exact h.read names out rfl a b hbefore hb file ((hqueue a b hbefore).symm.trans hfile)
  · have hbefore := hold a _ (hknown data (tick.heads_subset hdata)) hbefore
    exact h.heads data hdata a hbefore hsame file ((hqueue a _ hbefore).symm.trans hfile)

/-- The heads are the oldest of all the pending files that were read. -/
theorem Ordered.grouped {out : List QueueFile}
    (hok : World.Ok backoffSec ⟨disk, .reading [] out, clock, history⟩)
    (h : Ordered ⟨disk, .reading [] out, clock, history⟩) (horderly : Orderly history) :
    Ordered ⟨disk, .working clock (headsOf out), clock, history⟩ := by
  refine ⟨h.inTurn, fun names out htick => (by cases htick),
    fun data hdata a hbefore hsame file hfile => ?_⟩
  obtain ⟨hout, -⟩ := mem_headsOf hdata
  have hread := (h.read [] out rfl a _ hbefore (.inr ⟨data, hout, rfl⟩) file hfile).resolve_left
    List.not_mem_nil
  obtain ⟨hkey, hevent⟩ := hok.books.keyed _ _ hfile
  have hfile : file.event = a := event_eq hok.books.once hevent hbefore.enqueued.1 hkey
  cases hstatus : file.status with
  | dead => rfl
  | pending =>
    have hle := headsOf_le hdata hread hstatus (hfile ▸ hsame)
    rw [hfile] at hle
    exact absurd (horderly.created _ _ hbefore hsame) (Int.not_lt.mpr hle)

/-- The earlier events of a head's envelope have been accepted or are dead. -/
theorem Ordered.inTurn_head (hok : World.Ok backoffSec ⟨disk, tick, clock, history⟩)
    (h : Ordered ⟨disk, tick, clock, history⟩) (hdata : data ∈ tick.heads) :
    InTurn history (.attempted data.event.id now) := by
  intro a b hid hbefore hsame
  obtain rfl : b = data.event := event_eq hok.books.once hbefore.enqueued.2
    (hok.holds.known hok.books (tick.heads_subset hdata)) hid
  rcases hok.books.kept a hbefore.enqueued.1 with ⟨file, hfile, -⟩ | haccepted
  · exact .inr ((hok.books.dead _).mpr ⟨file, hfile, h.heads data hdata a hbefore hsame file hfile⟩)
  · exact .inl haccepted

/-- A head's file is written, and the others stay behind no pending file. -/
theorem Ordered.written (hok : World.Ok backoffSec ⟨disk, tick, clock, history⟩)
    (h : Ordered ⟨disk, tick, clock, history⟩) (hdata : data ∈ tick.heads) (file : QueueFile)
    (hevent : file.event = data.event) {found other : QueueFile} (hother : other ∈ tick.heads)
    (hbefore : Before history a other.event) (hsame : a.envelopeId = other.event.envelopeId)
    (hfile : (disk.write file).queue a.id = some found) : disk.queue a.id = some found := by
  have hne : a.id ≠ data.event.id := by
    intro heq
    have hstored := hok.holds.stored data (tick.heads_subset hdata)
    have hdead := h.heads other hother a hbefore hsame data (heq ▸ hstored)
    rw [hok.holds.pending data hdata] at hdead
    cases hdead
  rwa [Disk.queue_write_of_ne (hevent ▸ hne)] at hfile

theorem Ordered.start (clock : Time) : Ordered (.start clock) where
  inTurn := trivial
  read _ _ h := by cases h
  heads _ h := by cases h

theorem Ordered.step (hok : World.Ok backoffSec world) (h : Ordered world)
    (horderly : Orderly world'.history) (hstep : Step backoffSec world world') :
    Ordered world' := by
  cases hstep with
  | enqueue event fresh nextAt drawn => exact h.enqueue hok fresh nextAt
  | pass clock later => exact ⟨h.inTurn, h.read, h.heads⟩
  | list names nodup all =>
    refine ⟨h.inTurn, fun names' out htick a b hbefore hb file hfile => ?_,
      fun _ hdata => by cases hdata⟩
    cases htick
    refine .inl ((all _).mpr ?_)
    rw [hfile]
    rfl
  | @read disk data eventId names out clock history found =>
    refine ⟨h.inTurn, fun names' out' htick a b hbefore hb file hfile => ?_,
      fun _ hdata => by cases hdata⟩
    cases htick
    have hb : b.id ∈ eventId :: names ∨ ∃ data ∈ out, data.event = b := by
      rcases hb with hb | ⟨data', hdata, rfl⟩
      · exact .inl (List.mem_cons_of_mem _ hb)
      rcases List.mem_append.mp hdata with hdata | hdata
      · exact .inr ⟨data', hdata, rfl⟩
      · rw [List.mem_singleton.mp hdata, (hok.books.keyed _ _ found).1]
        exact .inl List.mem_cons_self
    rcases h.read _ _ rfl a b hbefore hb file hfile with hname | hout
    · rcases List.mem_cons.mp hname with heq | hname
      · rw [heq, found] at hfile
        cases hfile
        exact .inr (List.mem_append_right _ List.mem_cons_self)
      · exact .inl hname
    · exact .inr (List.mem_append_left _ hout)
  | unread => exact absurd List.mem_cons_self (horderly.read _)
  | grouped => exact h.grouped hok horderly
  | attempt due =>
    exact h.keep ⟨h.inTurn_head hok List.mem_cons_self, h.inTurn⟩
      (fun _ _ => .of_cons fun heq => by cases heq) (fun _ _ htick => by cases htick)
      (List.Subset.refl _) fun _ _ _ _ _ _ hfile => hfile
  | send | sendUnheard =>
    exact h.keep ⟨trivial, h.inTurn⟩ (fun _ _ => .of_cons fun heq => by cases heq)
      (fun _ _ htick => by cases htick) (List.Subset.refl _) fun _ _ _ _ _ _ hfile => hfile
  | rm =>
    refine h.keep h.inTurn (fun _ _ hbefore => hbefore) (fun _ _ htick => by cases htick)
      (List.subset_cons_self _ _) fun _ _ a _ _ file hfile => ?_
    exact (Disk.of_queue_rm hfile).2
  | bury last =>
    refine h.keep ⟨trivial, trivial, h.inTurn⟩
      (fun _ _ hbefore => (hbefore.of_cons fun heq => by cases heq).of_cons fun heq => by cases heq)
      (fun _ _ htick => by cases htick) (List.subset_cons_self _ _) ?_
    exact fun other hother a hbefore hsame file hfile =>
      h.written hok List.mem_cons_self (died _) rfl (List.mem_cons_of_mem _ hother) hbefore hsame
        hfile
  | retry again =>
    refine h.keep ⟨trivial, h.inTurn⟩ (fun _ _ hbefore => hbefore.of_cons fun heq => by cases heq)
      (fun _ _ htick => by cases htick) (List.subset_cons_self _ _) ?_
    exact fun other hother a hbefore hsame file hfile =>
      h.written hok List.mem_cons_self (retried _ _ _) rfl (List.mem_cons_of_mem _ hother) hbefore
        hsame hfile
  | stop | prune | pruneOne | pruneSkip | done =>
    exact h.keep h.inTurn (fun _ _ hbefore => hbefore) (fun _ _ htick => by cases htick)
      (List.nil_subset _) fun _ hdata => by cases hdata
  | notDue | writeFails =>
    exact h.keep h.inTurn (fun _ _ hbefore => hbefore) (fun _ _ htick => by cases htick)
      (List.subset_cons_self _ _) fun _ _ _ _ _ _ hfile => hfile
  | sendFails | receipt | receiptFails | rmFails | audit | auditFails =>
    exact h.keep h.inTurn (fun _ _ hbefore => hbefore) (fun _ _ htick => by cases htick)
      (List.Subset.refl _) fun _ _ _ _ _ _ hfile => hfile

theorem Ordered.run (hrun : Relation.ReflTransGen (Step backoffSec) (.start clock) world)
    (horderly : Orderly world.history) : Ordered world := by
  induction hrun with
  | refl => exact .start clock
  | tail hrun hstep ih =>
    exact (ih (horderly.of_step hstep)).step (World.Ok.run hrun) horderly hstep

/-- Where every file could be read, an event is attempted once each event of its
envelope that was enqueued before it has been accepted or is dead. -/
theorem deliveries_inOrder
    (hrun : Relation.ReflTransGen (Step backoffSec) (.start clock) world)
    (horderly : Orderly world.history) {later past : List Entry}
    (hhistory : world.history = later ++ .attempted b.id now :: past) (hbefore : Before past a b)
    (hsame : a.envelopeId = b.envelopeId) : .accepted a.id ∈ past ∨ .buried a.id ∈ past := by
  have hturn := (Ordered.run hrun horderly).inTurn
  rw [hhistory] at hturn
  exact hturn.split a b rfl hbefore hsame

end

namespace Sample

/-- No event was passed by, and the second event is of a later time. -/
theorem orderly : Orderly world.history where
  read eventId h := by simp [world, history] at h
  created a b h hsame := by
    simp [world, history, Before] at h
    obtain ⟨rfl, rfl⟩ := h
    decide

end Sample

theorem deliveries_inOrder_second :
    .accepted Sample.first.id ∈ Sample.history ∨ .buried Sample.first.id ∈ Sample.history := by
  have hhistory : Sample.world.history =
      [] ++ .attempted Sample.second.id 60000 :: Sample.history := rfl
  have hbefore : Before Sample.history Sample.first Sample.second := by
    simp [Sample.history, Before]
  exact deliveries_inOrder Sample.run Sample.orderly hhistory hbefore rfl

end EsigSuite.DeliveryQueue
