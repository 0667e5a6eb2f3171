import EsigSuite.Pdf.Asn1

/-!
# The answer of a time-stamp authority

`parseTimeStampResp` of `timestamp.ts`: the token of a response whose PKIStatus
is granted or grantedWithMods.
-/

namespace EsigSuite

open Asn1

def BITSTRING : Nat := 3

inductive TimeStampRespError
  /-- Of `fromDer`. -/
  | der (message : String)
  | noPkiStatusInfo
  | malformedPkiStatusInfo
  /-- The status is no byte string. -/
  | statusNotBytes
  | rejected (status : Nat) (failInfo : Option (List (Fin 16)))
  | noToken

/-- The message, given how the language writes a number. -/
def TimeStampRespError.text (string : Nat → String) : TimeStampRespError → String
  | .der message => message
  | .noPkiStatusInfo => "RFC3161: malformed TimeStampResp (no PKIStatusInfo)"
  | .malformedPkiStatusInfo => "RFC3161: malformed PKIStatusInfo"
  | .statusNotBytes => "bytes.charCodeAt is not a function"
  | .rejected status failInfo =>
    "RFC3161: TSA rejected request (PKIStatus=" ++ string status ++ ")" ++
      (failInfo.map fun digits => " failInfo=0x" ++ String.ofList (digits.map (Nat.digitChar ·))).getD ""
  | .noToken => "RFC3161: TimeStampResp granted but no timeStampToken present"

/-- `derIntToNumber` of the value of a node. An empty list of children has a
length and no characters. -/
def derIntToNumber (node : Asn1) : Except TimeStampRespError Nat :=
  match node with
  | .primitive _ _ bytes => .ok (bytes.foldl (fun n b => n * 256 + b.toNat) 0)
  | .constructed _ _ [] => .ok 0
  | .constructed _ _ (_ :: _) => .error .statusNotBytes

/-- The first BIT STRING of the status. -/
def failInfoOf (statusInfo : List Asn1) : Option (List (Fin 16)) :=
  (statusInfo.find? fun child => child.type = BITSTRING ∧ child.string?.isSome).bind fun child =>
    child.string?.map bytesToHex

def parseTimeStampResp (forge : Forge) (resp : Bytes) : Except TimeStampRespError Asn1 :=
  match forge.fromDer resp with
  | .error message => .error (.der message)
  | .ok resp =>
    match resp.children? with
    | none | some [] => .error .noPkiStatusInfo
    | some (statusInfo :: rest) =>
      match statusInfo.children? with
      | none | some [] => .error .malformedPkiStatusInfo
      | some (statusNode :: more) => do
        let status ← derIntToNumber statusNode
        if status ≠ 0 ∧ status ≠ 1 then
          throw (.rejected status (failInfoOf (statusNode :: more)))
        else
          match rest.head? with
          | none => throw .noToken
          | some token => return token

end EsigSuite
