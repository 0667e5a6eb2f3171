import EsigSuite.Core.CertKeys
import Mathlib.Data.List.Nodup
import Mathlib.Logic.Relation

/-!
# Runs of the certificate store

Calls of any number of processes, which read and replace the file without a lock. No
version of the file has two active certificates of a tenant, and a call returns a
certificate of its tenant with the key that was made for it. Rows may be lost, but
not where no two updates overlap.
-/

namespace EsigSuite.Certs

open Lib FsCertStore

/-- A row as it was made. -/
def CertJson.made (r : CertJson) : CertJson := { r with active := true }

def activeOf (tenantId : JsString) (r : CertJson) : Bool := r.tenantId = tenantId && r.active

/-- What holds of the file and of what was read of it. -/
structure RowsOk (made : List (CertJson × GeneratedCert)) (rows : List CertJson) : Prop where
  apart : (rows.map (·.id)).Nodup
  single : ∀ tenantId, rows.countP (activeOf tenantId) ≤ 1
  known : ∀ r ∈ rows, ∃ generated, (r.made, generated) ∈ made

/-- A row of the tenant was made under the id. -/
def Known (made : List (CertJson × GeneratedCert)) (tenantId certId : JsString) : Prop :=
  ∃ m ∈ made, m.1.id = certId ∧ m.1.tenantId = tenantId

section
variable (setup : Setup)

/-- The certificate was issued, and this is its wrapped key. -/
def Wrapped (generated : GeneratedCert) (blob : List UInt8) : Prop :=
  (∃ subjectName date, generateSelfSignedCert setup.issue subjectName date = some generated) ∧
    ∃ nonces, encryptKeyPem setup.ciphers setup.passphrase generated.keyPem nonces = some blob

structure MadeOk (made : List (CertJson × GeneratedCert)) : Prop where
  row : ∀ m ∈ made, m.1.certPem = m.2.certPem ∧
    ∃ blob, m.1.keyPemEncrypted = b64 blob ∧ Wrapped setup m.2 blob
  replaced : ∀ m ∈ made, ∀ old, m.1.rotatedFromId = some old → Known made m.1.tenantId old

/-- A certificate, and the key that was made for it. -/
def Pair (made : List (CertJson × GeneratedCert)) (tenantId : JsString) (cert : StoredCert)
    (certPem : JsString) (keyPem : List Char) : Prop :=
  cert.tenantId = tenantId ∧ Known made tenantId cert.id ∧ cert.certPem = certPem ∧
    ∃ subjectName date generated,
      generateSelfSignedCert setup.issue subjectName date = some generated ∧
        certPem = generated.certPem ∧ keyPem = generated.keyPem

def PhaseOk (made : List (CertJson × GeneratedCert)) (tenantId : JsString) : Phase → Prop
  | .finding | .deactivated | .failed => True
  | .deactivating _ existing => ∀ cert ∈ existing, Known made tenantId cert.id
  | .removing _ existing rows => (∀ cert ∈ existing, Known made tenantId cert.id) ∧ RowsOk made rows
  | .inserting generated blob existing =>
    (∀ cert ∈ existing, Known made tenantId cert.id) ∧ Wrapped setup generated blob
  | .adding generated row rows => RowsOk made rows ∧ (row, generated) ∈ made ∧ row.active = true ∧
    row.tenantId = tenantId ∧ ∀ r ∈ rows, r.id ≠ row.id
  | .returned cert certPem keyPem => Pair setup made tenantId cert certPem keyPem

structure World.Ok {ι : Type} (world : World ι) : Prop where
  made : MadeOk setup world.made
  rows : RowsOk world.made world.rows
  calls : ∀ i, PhaseOk setup world.made (world.calls i).tenantId (world.calls i).phase
  written : world.undisturbed = true → world.rows.map (·.id) = world.written

end

-- ---------------------------------------------------------------------------
-- What is written
-- ---------------------------------------------------------------------------

section
variable {made made' : List (CertJson × GeneratedCert)} {rows rows' : List CertJson} {row : CertJson}
  {tenantId certId : JsString} {generated : GeneratedCert} {setup : Setup}

theorem map_made_deactivated (rows : List CertJson) (certId : JsString) :
    (deactivated rows certId).map CertJson.made = rows.map CertJson.made := by
  induction rows with
  | nil => rfl
  | cons r rest ih =>
    unfold deactivated
    split
    · rfl
    · rw [List.map_cons, List.map_cons, ih]

theorem countP_deactivated_le (rows : List CertJson) (certId tenantId : JsString) :
    (deactivated rows certId).countP (activeOf tenantId) ≤ rows.countP (activeOf tenantId) := by
  induction rows with
  | nil => exact Nat.le_refl _
  | cons r rest ih =>
    unfold deactivated
    split
    · rw [List.countP_cons, List.countP_cons]
      have hoff : activeOf tenantId { r with active := false } = false := by simp [activeOf]
      rw [hoff]
      simp
    · rw [List.countP_cons, List.countP_cons]
      exact Nat.add_le_add_right ih _

theorem map_made_inserted (rows : List CertJson) (row : CertJson) :
    (inserted rows row).map CertJson.made = rows.map CertJson.made ++ [row.made] := by
  unfold inserted
  rw [List.map_append, List.map_map, List.map_singleton]
  congr 1
  refine List.map_congr_left fun r _ => ?_
  rw [Function.comp_apply]
  split <;> rfl

/-- The tenant of a new row has no other active one; of another tenant nothing changes. -/
theorem countP_inserted (h : row.active = true) (rows : List CertJson) (tenantId : JsString) :
    (inserted rows row).countP (activeOf tenantId) =
      if row.tenantId = tenantId then 1 else rows.countP (activeOf tenantId) := by
  unfold inserted
  rw [List.countP_append, List.countP_map, List.countP_singleton]
  split_ifs with hactive htenant htenant
  · rw [Nat.add_eq_right, List.countP_eq_zero]
    intro r _
    simp only [Function.comp_apply, activeOf]
    split_ifs with hr
    · simp
    · simp [htenant ▸ hr]
  · simp [activeOf, htenant] at hactive
  · simp [activeOf, htenant, h] at hactive
  · rw [Nat.add_zero]
    refine List.countP_congr fun r _ => ?_
    simp only [Function.comp_apply, activeOf]
    split_ifs with hr
    · simp [hr, htenant]
    · rfl

theorem map_id_of_made (h : rows'.map CertJson.made = rows.map CertJson.made) :
    rows'.map (·.id) = rows.map (·.id) := by
  have hids (rows : List CertJson) : rows.map (·.id) = (rows.map CertJson.made).map (·.id) := by
    rw [List.map_map]
    rfl
  rw [hids, h, ← hids]

theorem RowsOk.deactivated (h : RowsOk made rows) (certId : JsString) :
    RowsOk made (deactivated rows certId) where
  apart := by
    rw [map_id_of_made (map_made_deactivated rows certId)]
    exact h.apart
  single tenantId := Nat.le_trans (countP_deactivated_le rows certId tenantId) (h.single tenantId)
  known r hr := by
    have hmem : r.made ∈ (FsCertStore.deactivated rows certId).map CertJson.made :=
      List.mem_map_of_mem hr
    rw [map_made_deactivated] at hmem
    obtain ⟨r', hr', heq⟩ := List.mem_map.mp hmem
    rw [← heq]
    exact h.known r' hr'

theorem map_id_inserted (rows : List CertJson) (row : CertJson) :
    (inserted rows row).map (·.id) = rows.map (·.id) ++ [row.id] := by
  have hmade : (inserted rows row).map CertJson.made = (rows ++ [row]).map CertJson.made := by
    rw [map_made_inserted, List.map_append, List.map_singleton]
  rw [map_id_of_made hmade, List.map_append, List.map_singleton]

theorem RowsOk.inserted (h : RowsOk made rows) (hactive : row.active = true)
    (hmade : (row, generated) ∈ made) (hnew : ∀ r ∈ rows, r.id ≠ row.id) :
    RowsOk made (inserted rows row) where
  apart := by
    rw [map_id_inserted]
    refine List.nodup_append.mpr ⟨h.apart, List.nodup_singleton _, ?_⟩
    rintro certId hmem _ hlast rfl
    obtain ⟨r, hr, rfl⟩ := List.mem_map.mp hmem
    exact hnew r hr (List.mem_singleton.mp hlast)
  single tenantId := by
    rw [countP_inserted hactive]
    split
    · exact Nat.le_refl 1
    · exact h.single tenantId
  known r hr := by
    have hmem : r.made ∈ (FsCertStore.inserted rows row).map CertJson.made := List.mem_map_of_mem hr
    rw [map_made_inserted, List.mem_append, List.mem_singleton] at hmem
    rcases hmem with hmem | heq
    · obtain ⟨r', hr', heq⟩ := List.mem_map.mp hmem
      rw [← heq]
      exact h.known r' hr'
    · have hrow : row.made = row := by rw [CertJson.made, ← hactive]
      exact ⟨generated, by rw [heq, hrow]; exact hmade⟩

theorem Known.mono (h : Known made tenantId certId) (hsub : made ⊆ made') :
    Known made' tenantId certId := by
  obtain ⟨m, hm, hrest⟩ := h
  exact ⟨m, hsub hm, hrest⟩

theorem RowsOk.mono (h : RowsOk made rows) (hsub : made ⊆ made') : RowsOk made' rows where
  apart := h.apart
  single := h.single
  known r hr := by
    obtain ⟨generated, hmem⟩ := h.known r hr
    exact ⟨generated, hsub hmem⟩

theorem PhaseOk.mono {phase : Phase} (h : PhaseOk setup made tenantId phase) (hsub : made ⊆ made') :
    PhaseOk setup made' tenantId phase := by
  cases phase with
  | finding | deactivated | failed => trivial
  | deactivating => exact fun cert hcert => (h cert hcert).mono hsub
  | removing => exact ⟨fun cert hcert => (h.1 cert hcert).mono hsub, h.2.mono hsub⟩
  | inserting => exact ⟨fun cert hcert => (h.1 cert hcert).mono hsub, h.2⟩
  | adding => exact ⟨h.1.mono hsub, hsub h.2.1, h.2.2⟩
  | returned => exact ⟨h.1, h.2.1.mono hsub, h.2.2⟩

/-- What `findActive` returns of rows that are well. -/
theorem RowsOk.found {cert : StoredCert} (h : RowsOk made rows)
    (hfound : findActive rows tenantId = some cert) :
    ∃ m ∈ made, cert.id = m.1.id ∧ m.1.tenantId = tenantId ∧ cert.tenantId = tenantId ∧
      cert.certPem = m.1.certPem ∧ cert.keyPemEncrypted = fromBase64 m.1.keyPemEncrypted := by
  obtain ⟨r, hr, rfl⟩ := Option.map_eq_some_iff.mp hfound
  obtain ⟨generated, hmem⟩ := h.known r (List.mem_of_find?_eq_some hr)
  have htenant := List.find?_some hr
  rw [Bool.and_eq_true, decide_eq_true_eq] at htenant
  exact ⟨_, hmem, rfl, htenant.1, htenant.1, rfl, rfl⟩

end

-- ---------------------------------------------------------------------------
-- Runs
-- ---------------------------------------------------------------------------

section
variable {ι : Type} {setup : Setup} {world : World ι}

/-- The file is replaced by rows with the same ids as the ones that were read. -/
theorem World.Ok.writes (h : World.Ok setup world) {snapshot rows : List CertJson}
    (hrows : RowsOk world.made rows) (hids : rows.map (·.id) = snapshot.map (·.id)) :
    World.Ok setup (world.writes snapshot rows) where
  made := h.made
  rows := hrows
  calls := h.calls
  written hundisturbed := by
    simp only [World.writes, Bool.and_eq_true, decide_eq_true_eq] at hundisturbed
    obtain ⟨hbefore, rfl⟩ := hundisturbed
    exact hids.trans (h.written hbefore)

theorem World.Ok.start (requests : ι → Request) : World.Ok setup (.start requests) where
  made := ⟨fun _ h => (by cases h), fun _ h => (by cases h)⟩
  rows := ⟨List.nodup_nil, fun _ => Nat.zero_le 1, fun _ h => (by cases h)⟩
  calls i := by
    unfold World.start
    dsimp only
    cases requests i with
    | ensureActiveCert => trivial
    | deactivate => exact fun _ hcert => by cases hcert
  written _ := rfl

end

section
variable {ι : Type} [DecidableEq ι] {setup : Setup} {world world' : World ι} {i : ι} {phase : Phase}

/-- A call goes on, and the rest stays. -/
theorem World.Ok.goes (h : World.Ok setup world)
    (hphase : PhaseOk setup world.made (world.calls i).tenantId phase) :
    World.Ok setup (world.goes i phase) where
  made := h.made
  rows := h.rows
  calls j := by
    rcases eq_or_ne j i with rfl | hne
    · simpa [World.goes, Call.to] using hphase
    · simpa [World.goes, hne] using h.calls j
  written := h.written

theorem World.Ok.of_phase (h : World.Ok setup world) (hat : (world.calls i).phase = phase) :
    PhaseOk setup world.made (world.calls i).tenantId phase := by
  rw [← hat]
  exact h.calls i

theorem Wrapped.of {generated : GeneratedCert} {blob : List UInt8} {subjectName : JsString}
    {date : Date} {nonces : Nonces}
    (hmade : generateSelfSignedCert setup.issue subjectName date = some generated)
    (hwrapped : encryptKeyPem setup.ciphers setup.passphrase generated.keyPem nonces = some blob) :
    Wrapped setup generated blob := ⟨⟨subjectName, date, hmade⟩, nonces, hwrapped⟩

/-- A row that was found has the key that was made for it. -/
theorem MadeOk.pair (hsound : setup.ciphers.Sound) {made : List (CertJson × GeneratedCert)}
    {rows : List CertJson} {tenantId : JsString} {cert : StoredCert} {keyPem : List Char}
    (h : MadeOk setup made) (hrows : RowsOk made rows)
    (hfound : findActive rows tenantId = some cert)
    (hopened : decryptKeyPem setup.ciphers setup.passphrase cert.keyPemEncrypted = some keyPem) :
    Pair setup made tenantId cert cert.certPem keyPem := by
  obtain ⟨m, hm, hid, hmtenant, htenant, hcertPem, hkey⟩ := hrows.found hfound
  obtain ⟨hmcert, blob, hblob, ⟨subjectName, date, hgenerated⟩, nonces, hwrapped⟩ := h.row m hm
  refine ⟨htenant, ⟨m, hm, hid.symm, hmtenant⟩, rfl, subjectName, date, m.2, hgenerated,
    hcertPem.trans hmcert, ?_⟩
  rw [hkey, hblob, fromBase64_b64, decryptKeyPem_encryptKeyPem hsound hwrapped] at hopened
  exact (Option.some.inj hopened).symm

/-- A new row is made, with what was read before. -/
theorem World.Ok.insert (h : World.Ok setup world) {generated : GeneratedCert} {blob : List UInt8}
    {existing : Option StoredCert} {certId : JsString} {date : Date}
    (hat : (world.calls i).phase = .inserting generated blob existing)
    (hfresh : ∀ m ∈ world.made, m.1.id ≠ certId) {row : CertJson}
    (hrow : row = newRow certId (world.calls i).tenantId generated blob (existing.map (·.id)) date) :
    World.Ok setup ({ world with made := world.made ++ [(row, generated)] }.goes i
      (.adding generated row world.rows)) := by
  have hsub : world.made ⊆ world.made ++ [(row, generated)] := List.subset_append_left _ _
  obtain ⟨hexisting, hwrapped⟩ := h.of_phase hat
  have hnext : World.Ok setup { world with made := world.made ++ [(row, generated)] } := by
    refine ⟨⟨fun m hm => ?_, fun m hm old hold => ?_⟩, h.rows.mono hsub,
      fun j => (h.calls j).mono hsub, h.written⟩
    · rcases List.mem_append.mp hm with hm | hm
      · exact h.made.row m hm
      · obtain rfl := List.mem_singleton.mp hm
        subst hrow
        exact ⟨rfl, blob, rfl, hwrapped⟩
    · rcases List.mem_append.mp hm with hm | hm
      · exact (h.made.replaced m hm old hold).mono hsub
      · obtain rfl := List.mem_singleton.mp hm
        subst hrow
        obtain ⟨cert, hcert, rfl⟩ := Option.map_eq_some_iff.mp hold
        exact (hexisting cert hcert).mono hsub
  refine hnext.goes ⟨hnext.rows, List.mem_append_right _ List.mem_cons_self, ?_, ?_, ?_⟩
  · subst hrow
    rfl
  · subst hrow
    rfl
  · intro r hr hid
    obtain ⟨generated', hmem⟩ := h.rows.known r hr
    subst hrow
    exact hfresh _ hmem hid

/-- The new row is written. -/
theorem World.Ok.add (h : World.Ok setup world) {generated : GeneratedCert} {row : CertJson}
    {rows : List CertJson} (hat : (world.calls i).phase = .adding generated row rows) :
    World.Ok setup ({ world.writes rows (FsCertStore.inserted rows row) with
        written := world.written ++ [row.id] }.goes i
      (.returned (FsCertStore.revive row) generated.certPem generated.keyPem)) := by
  obtain ⟨hrows, hmade, hactive, htenant, hnew⟩ := h.of_phase hat
  obtain ⟨hcertPem, -, -, ⟨subjectName, date, hgenerated⟩, -⟩ := h.made.row _ hmade
  have hnext : World.Ok setup { world.writes rows (FsCertStore.inserted rows row) with
      written := world.written ++ [row.id] } := by
    refine ⟨h.made, hrows.inserted hactive hmade hnew, h.calls, fun hundisturbed => ?_⟩
    simp only [World.writes, Bool.and_eq_true, decide_eq_true_eq] at hundisturbed
    obtain ⟨hbefore, rfl⟩ := hundisturbed
    have hwritten := h.written hbefore
    simp only [World.rows, World.writes, Option.getD_some, map_id_inserted] at hwritten ⊢
    rw [hwritten]
  exact hnext.goes ⟨htenant, ⟨_, hmade, rfl, htenant⟩, hcertPem, subjectName, date, generated,
    hgenerated, rfl, rfl⟩

theorem World.Ok.step (hsound : setup.ciphers.Sound) (h : World.Ok setup world)
    (hnext : Next setup world world') : World.Ok setup world' := by
  cases hnext with
  | use at_ found live opened => exact h.goes (h.made.pair hsound h.rows found opened)
  | replace at_ found expired =>
    refine h.goes fun cert hcert => ?_
    obtain rfl := Option.some.inj hcert
    obtain ⟨m, hm, hid, htenant, -⟩ := h.rows.found found
    exact ⟨m, hm, hid.symm, htenant⟩
  | first at_ found made wrapped => exact h.goes ⟨fun _ hcert => (by cases hcert), Wrapped.of made wrapped⟩
  | read at_ found =>
    have hcall := h.of_phase at_
    exact h.goes ⟨hcall, h.rows⟩
  | skip at_ gone => exact h.goes trivial
  | skipReplaced at_ gone made wrapped =>
    have hcall := h.of_phase at_
    exact h.goes ⟨hcall, Wrapped.of made wrapped⟩
  | remove at_ =>
    have hcall := h.of_phase at_
    refine World.Ok.goes (h.writes (hcall.2.deactivated _) ?_) trivial
    exact map_id_of_made (map_made_deactivated _ _)
  | removeReplaced at_ made wrapped =>
    have hcall := h.of_phase at_
    refine World.Ok.goes (h.writes (hcall.2.deactivated _) ?_) ⟨hcall.1, Wrapped.of made wrapped⟩
    exact map_id_of_made (map_made_deactivated _ _)
  | insert at_ fresh row_eq => exact h.insert at_ fresh row_eq
  | add at_ => exact h.add at_
  | fail i => exact h.goes trivial

theorem World.Ok.run (hsound : setup.ciphers.Sound) {requests : ι → Request}
    (hrun : Relation.ReflTransGen (Next setup) (.start requests) world) : World.Ok setup world := by
  induction hrun with
  | refl => exact .start requests
  | tail _ hnext ih => exact ih.step hsound hnext

end

-- ---------------------------------------------------------------------------
-- Two first calls at once
-- ---------------------------------------------------------------------------

namespace Sample

/-- Ciphers that leave everything in the clear. -/
def ciphers : Ciphers where
  scrypt _ _ := []
  encrypt _ _ plain := (plain, List.replicate 16 0)
  decrypt _ _ _ ciphertext := some ciphertext

def setup : Setup where
  ciphers := ciphers
  issue subjectName _ _ := ("key".toList, js "cert of " ++ subjectName, js "00")
  passphrase := js "twenty-four characters at least"

def date : Date := ⟨1754500000000, by decide⟩

def nonces : Nonces := ⟨List.replicate 16 0, List.replicate 12 0, rfl, rfl⟩

def generated : GeneratedCert :=
  ⟨"key".toList, js "cert of Acme", js "00", date, ⟨1786036000000, by decide⟩⟩

theorem generated_eq : generateSelfSignedCert setup.issue (js "Acme") date = some generated := by
  rfl

def blob : List UInt8 :=
  ENC_VERSION ++ (nonces.salt ++ (nonces.iv ++ (List.replicate 16 0 ++ Utf8.encode "key".toList)))

theorem blob_eq : encryptKeyPem ciphers setup.passphrase generated.keyPem nonces = some blob := by
  decide +kernel

def requests (_ : Bool) : Request := .ensureActiveCert (js "tenant") (js "Acme")

def row (certId : JsString) : CertJson := newRow certId (js "tenant") generated blob none date

/-- Both find no certificate, and the second writes what it read before the first did. -/
theorem run : ∃ world : World Bool, Relation.ReflTransGen (Next setup) (.start requests) world ∧
    (world.calls true).phase = .returned (revive (row (js "a"))) generated.certPem generated.keyPem ∧
    world.rows.map (·.id) = [js "b"] ∧ world.written = [js "a", js "b"] := by
  refine ⟨_, .head (.first (i := true) rfl rfl generated_eq blob_eq)
    (.head (.first (i := false) rfl rfl generated_eq blob_eq)
    (.head (.insert (i := true) rfl (fun _ h => by cases h) (rfl : row (js "a") = _))
    (.head (.insert (i := false) rfl ?_ (rfl : row (js "b") = _))
    (.head (.add (i := true) rfl) (.single (.add (i := false) rfl)))))), ?_⟩
  · intro made hmade
    rw [List.mem_singleton.mp hmade]
    decide
  · exact ⟨rfl, rfl, rfl⟩

end Sample

end EsigSuite.Certs
