import EsigSuite.Provisioning.Calls
import EsigSuite.Provisioning.Convergence

/-!
# A runtime to run examples in

The hashes of the texts that the identifiers of the subscription `sub_1` are
made of, and code point order for `localeCompare`.
-/

namespace EsigSuite.Provisioning.Sample

open Lib

def hashes : List (String × String) :=
  [("e-sig-cloud:v1:job:sub_1",
      "9ad60ff351ef66ab5dcb9d45d31885a56fb168cfe22f39e38c19c44727c1df29"),
    ("e-sig-cloud:v1:credential-handoff:sub_1",
      "885986ed709cda3a7254065422445fa42c421273ecdb2af7c6fd4af297cf4eec"),
    ("e-sig-cloud:v1:credential-handoff:sub_1:activation:1",
      "7294abf87298caa5f3434fba2553d9df999614f083d57d02b2fa1b519d15a7b1")]

def hashing : Hashing where
  sha256Hex text := ((hashes.find? (·.1 == text)).map (·.2)).getD ""
  sha1 _ :=
    [0xf7, 0xf2, 0xbc, 0x60, 0xc3, 0x48, 0xb8, 0x09, 0x23, 0x90, 0x04, 0x68, 0x27, 0xa6,
      0xf3, 0xdd, 0x66, 0x12, 0x8e, 0x93]

def runtime : Runtime := ⟨hashing, .codePoints⟩

/-- Nothing but the store and the clock. -/
def storeOnly : Outside := ⟨Empty, nofun⟩

def noExec : storeOnly.Exec Unit := fun (call : Empty) => nomatch call

def noAnswer : (call : storeOnly.Call) → System Unit → storeOnly.Answer call × Unit :=
  fun (call : Empty) => nomatch call

theorem noAnswer_exec : ∀ (call : storeOnly.Call) (s : System Unit),
    noExec call s.store s.outside (noAnswer call s).1 (noAnswer call s).2 :=
  fun (call : Empty) => nomatch call

abbrev Turns (ι : Type) := List (ι × Option SafeProvisioningError)

/-- The thread makes some calls, none of which fails. -/
def calls (i : ι) (n : Nat) : Turns ι := List.replicate n (i, none)

end EsigSuite.Provisioning.Sample
