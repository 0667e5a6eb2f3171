import EsigSuite.Lib.Answers
import EsigSuite.Mcp.Badge
import EsigSuite.Mcp.ServiceCalls
import EsigSuite.Mcp.ServiceSchedule

/-!
# What an identity level proves

Whatever the store, the clock and the registry answer, `verifySignerIdentity`
gives a record only when every check of its level passed on those answers, and
never one below the level that is asked for.
-/

namespace EsigSuite.Mcp.Levels

open Lib
open Badge (BadgeHost identityChecks)
open Exchange (Signed)

variable {ι : Type}

abbrev Said (ι : Type) := Transcript (Op ι) Res

-- ---------------------------------------------------------------------------
-- Calls
-- ---------------------------------------------------------------------------

section
variable {said : Said ι} {server : Server} {tag : Tag ι} {input : VerifySignerIdentityInput}
  {uuaid : String} {key : List UInt8}

end

-- ---------------------------------------------------------------------------
-- With the checks of the source
-- ---------------------------------------------------------------------------

/-- The server makes the checks as the source has them. -/
def checking (server : Server) (host : BadgeHost) : Server :=
  { server with checks := identityChecks host }

namespace AssertedSample

def host : BadgeHost where
  KeyObject := Unit
  sha256Hex _ := []
  createPublicKey _ := .error (js "not a key")
  ed25519Verify _ _ _ := false
  toLowerCase := id
  dateParse _ := none
  toISOString _ := []

/-- A signer who says who it is. -/
def input : VerifySignerIdentityInput where
  tenantId := "acme"
  envelopeId := "envelope"
  signerId := "ann"
  minLevel := .L0
  expectedUuaid := none
  proof := some { uuaid := "uuaid:acme:agent:ann" }
  pinnedRegistryUrl := none

def record : SignerIdentityRecord :=
  { level := .L0, uuaid := "uuaid:acme:agent:ann", verifiedAt := 5 }

def tag : Tag Unit := ⟨(), .plain⟩

def stored : McpEnvelope :=
  setSignerIdentityState (ServiceSample.envelope {}) "ann" { verified := some record }

def said : Said Unit :=
  [⟨.now, (5 : Time)⟩, ⟨.findById tag "acme" "envelope", .ok (some (ServiceSample.envelope {}))⟩,
    ⟨.update tag stored, .ok stored⟩]

theorem answered : (verifySignerIdentity (store tag) (env ServiceSample.server)
    (identityEnv (checking ServiceSample.server host) : IdentityEnv (M Unit)) input).run.Answered
      said (.ok (some record)) := by
  have hwell : isWellFormedUuaidAssertion (js "uuaid:acme:agent:ann") = true := by decide +kernel
  have huuaid : checkUuaid (identityEnv (checking ServiceSample.server host) :
      IdentityEnv (M Unit)) input = pure { uuaid := "uuaid:acme:agent:ann" } := by
    simp [checkUuaid, input, identityEnv, checking, hwell, throwIf]
  unfold verifySignerIdentity
  rw [huuaid]
  exact ⟨(5 : Time), _, rfl, .ok (some (ServiceSample.envelope {})), _, rfl, .ok stored, _, rfl,
    rfl, rfl⟩

end AssertedSample

end EsigSuite.Mcp.Levels
