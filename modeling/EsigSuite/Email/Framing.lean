import EsigSuite.Email.Smtp

/-!
# What goes over the wire

Whatever a message holds, it is one text of lines to the server: the line of one
dot comes at its end only, every header field is a line, and every command is one.
-/

namespace EsigSuite.Email

open Lib Lib.Regex

-- ---------------------------------------------------------------------------
-- Texts without line ends
-- ---------------------------------------------------------------------------

abbrev Line (s : JsString) : Prop := lineEnds.Line s

theorem line_append {s t : JsString} (hs : Line s) (ht : Line t) : Line (s ++ t) :=
  ⟨fun h => (List.mem_append.mp h).elim hs.1 ht.1, fun h => (List.mem_append.mp h).elim hs.2 ht.2⟩

theorem line_of_forall {s : JsString} (h : ∀ c ∈ s, c ≠ 13 ∧ c ≠ 10) : Line s :=
  ⟨fun hm => (h _ hm).1 rfl, fun hm => (h _ hm).2 rfl⟩

theorem line_subset {s t : JsString} (hs : Line s) (h : ∀ c ∈ t, c ∈ s) : Line t :=
  ⟨fun hm => hs.1 (h _ hm), fun hm => hs.2 (h _ hm)⟩

instance (s : JsString) : Decidable (Line s) := inferInstanceAs (Decidable (_ ∧ _))

theorem stripControlChars_line (s : JsString) : Line (stripControlChars s) := by
  refine line_of_forall fun c hc => ?_
  have hkept := List.of_mem_filter hc
  refine ⟨?_, ?_⟩
  · rintro rfl
    revert hkept
    decide
  · rintro rfl
    revert hkept
    decide

theorem mem_trim {c : UInt16} {s : JsString} (h : c ∈ trim s) : c ∈ s :=
  (List.dropWhile_suffix _).subset ((List.rdropWhile_prefix _ _).subset h)

theorem firstMatch_groups {r : Regex UInt16} {before : Option UInt16} {text : JsString}
    {m : Found UInt16} (h : firstMatch r before text = some m) :
    ∀ g ∈ m.groups, ∀ c ∈ g, c ∈ text := by
  induction text generalizing before with
  | nil => exact exec_groups (List.mem_of_mem_head? h)
  | cons d text ih =>
    rw [firstMatch, Option.or_eq_some_iff] at h
    rcases h with h | ⟨-, h⟩
    · exact exec_groups (List.mem_of_mem_head? h)
    · exact fun g hg c hc => List.mem_cons_of_mem _ (ih h g hg c hc)

theorem extractAddress_line (value : JsString) : Line (extractAddress value) := by
  refine line_subset (stripControlChars_line value) fun c hc => ?_
  refine mem_trim (?_ : c ∈ trim (stripControlChars value))
  have hfound := mem_trim hc
  cases hmatch : firstMatch bracketed none (trim (stripControlChars value)) with
  | none => rwa [hmatch] at hfound
  | some m =>
    rw [hmatch, Option.bind_some] at hfound
    cases hgroup : m.groups.head? with
    | none => rwa [hgroup] at hfound
    | some g =>
      rw [hgroup, Option.getD_some] at hfound
      exact firstMatch_groups hmatch g (List.mem_of_mem_head? hgroup) c hfound

theorem base64_line (text : JsString) : Line (base64 text) := by
  refine line_of_forall fun c hc => ?_
  obtain ⟨code, hmem, rfl⟩ := List.mem_map.mp hc
  have htext := Base64.isText_encode _ code hmem
  have hunit : ∀ other : UInt8, Base64.isText other = false → code.toUInt16 ≠ other.toUInt16 := by
    intro other hother hsame
    have hcode : code = other := UInt8.toNat_inj.mp (by simpa using congrArg UInt16.toNat hsame)
    rw [hcode, hother] at htext
    cases htext
  exact ⟨hunit 13 rfl, hunit 10 rfl⟩

-- ---------------------------------------------------------------------------
-- Header fields
-- ---------------------------------------------------------------------------

/-- Of what a conversation does only the writes count. -/
def Writes (P : JsString → Prop) (op : SmtpOp) : Prop := ∀ raw, op = .write raw → P raw

section
variable {C : SmtpOp → Prop} {opts : SmtpTransportOptions} {host : MailHost} {msg : EmailMessage}

open Calls

theorem writeRaw_calls {raw : JsString} (h : C (.write raw)) : All C (Smtp.writeRaw raw) :=
  All.lift (Prog.Calls.perform h)

theorem orThrow_calls {op : SmtpOp} {error : op.Res → Option JsString} (h : C op) :
    All C (Smtp.orThrow op error) := by
  refine All.bind (All.lift (Prog.Calls.perform h)) fun r => ?_
  split
  · exact All.throw _
  · exact All.pure _

theorem fail_calls {α : Type} {message : JsString} : All C (Smtp.fail (α := α) opts message) :=
  All.throw _

variable (hread : C .readReply)

include hread

theorem readReply_calls : All C Smtp.readReply := Prog.Calls.perform hread

theorem expect_calls {codes : List Nat} {step : String} : All C (Smtp.expect opts codes step) := by
  refine All.bind (readReply_calls hread) fun reply => ?_
  split
  · exact fail_calls
  · exact All.pure _

variable (hline : ∀ line, Line line → C (.write (line ++ crlf)))

include hline

omit hread in
theorem writeLine_calls {line : JsString} (h : Line line) : All C (Smtp.writeLine line) :=
  writeRaw_calls (hline line h)

theorem ehlo_calls : All C (Smtp.ehlo opts host) := by
  have hname : Line (if host.hostname = [] then js "localhost" else host.hostname) := by
    split
    · decide
    · exact host.hostname_line
  refine All.bind (writeLine_calls hline (line_append (by decide) hname)) fun _ =>
    All.bind (readReply_calls hread) fun reply => ?_
  split
  · exact All.pure _
  · refine All.bind (writeLine_calls hline (line_append (by decide) hname)) fun _ =>
      All.bind (readReply_calls hread) fun heloReply => ?_
    split
    · exact fail_calls
    · exact All.pure _

theorem authenticate_calls : All C (Smtp.authenticate opts) := by
  refine All.bind (writeLine_calls hline (line_append (by decide) (base64_line _))) fun _ =>
    All.bind (readReply_calls hread) fun plainReply => ?_
  split
  · exact All.pure _
  split
  · exact fail_calls
  refine All.bind (writeLine_calls hline (by decide)) fun _ =>
    All.bind (readReply_calls hread) fun loginReply => ?_
  split
  · exact fail_calls
  refine All.bind (writeLine_calls hline (base64_line _)) fun _ =>
    All.bind (readReply_calls hread) fun userReply => ?_
  split
  · exact fail_calls
  refine All.bind (writeLine_calls hline (base64_line _)) fun _ =>
    All.bind (readReply_calls hread) fun passReply => ?_
  split
  · exact fail_calls
  · exact All.pure _

theorem deliver_calls (hpayload : C (.write (dataPayload host msg))) :
    All C (Smtp.deliver opts host msg) := by
  have hcommand {verb value : JsString} (hverb : Line verb) :
      All C (Smtp.writeLine (verb ++ extractAddress value ++ js ">")) :=
    writeLine_calls hline (line_append (line_append hverb (extractAddress_line value)) (by decide))
  rw [Smtp.deliver]
  dsimp only
  split
  on_goal 1 => refine All.bind (authenticate_calls hread hline) fun _ => ?_
  all_goals
    refine All.bind (hcommand (by decide)) fun _ => All.bind (expect_calls hread) fun _ =>
      All.bind (hcommand (by decide)) fun _ => All.bind (expect_calls hread) fun _ =>
      All.bind (writeLine_calls hline (by decide)) fun _ => All.bind (expect_calls hread) fun _ =>
      All.bind (writeRaw_calls hpayload) fun _ => All.bind (readReply_calls hread) fun dataReply => ?_
    have hquit : All C (do
        Smtp.writeLine (js "QUIT")
        let _ ← tryCatchThe JsString (some <$> Smtp.readReply) fun _ => return none
        return messageIdOf host) :=
      All.bind (writeLine_calls hline (by decide)) fun _ =>
        All.bind (All.tryCatch (All.map (readReply_calls hread)) fun _ => All.pure _) fun _ =>
          All.pure _
    split
    · exact All.bind fail_calls fun _ => hquit
    · exact hquit

end

end EsigSuite.Email
