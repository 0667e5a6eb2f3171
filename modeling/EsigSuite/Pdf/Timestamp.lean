import EsigSuite.Pdf.Asn1

/-!
# Reading an RFC 3161 time-stamp token

`parseTstInfo` of `timestamp.ts`, and its copy in `verify-browser.js`. Only
the message imprint is load-bearing; every parse miss leaves a field empty.
-/

namespace EsigSuite

open Asn1

def OID_TIMESTAMP_TOKEN : String := "1.2.840.113549.1.9.16.2.14"
def OID_TST_INFO : String := "1.2.840.113549.1.9.16.1.4"
def OID_SIGNED_DATA : String := "1.2.840.113549.1.7.2"
def OID_COMMON_NAME : String := "2.5.4.3"

structure TstInfo where
  genTime : Option Bytes := none
  serialHex : Option (List (Fin 16)) := none
  tsaCommonName : Option Bytes := none
  messageImprintHashHex : Option (List (Fin 16)) := none

/-- The first child of the last constructed context-specific node that is not
the content-type OID. -/
def tokenSignedData (forge : Forge) (children : List Asn1) : Option Asn1 :=
  children.foldl (fun found child =>
    if child.type = OID ∧ safeOid forge child = OID_SIGNED_DATA then found
    else match child.tagClass == CONTEXT_SPECIFIC, child.children? with
      | true, some cs => cs.head?
      | _, _ => found) none

/-- The octets of the encapsulated TSTInfo. `none` also where the octet
string wraps another constructed value, on which `fromDer` throws. -/
def tstInfoBytes (forge : Forge) : List Asn1 → Option Bytes
  | [] => none
  | child :: rest =>
    match child.children? with
    | some (first :: seq) =>
      if child.type = SEQUENCE ∧ first.type = OID ∧ safeOid forge first = OID_TST_INFO then do
        let explicit ← seq.head?
        let oct ← (← explicit.children?).head?
        if oct.type = OCTETSTRING then
          match oct.string? with
          | some value => some value
          | none => (← (← oct.children?).head?).string?
        else none
      else tstInfoBytes forge rest
    | _ => tstInfoBytes forge rest

/-- The last element of the first SEQUENCE field that ends in an octet string. -/
def messageImprint : List Asn1 → Option Bytes
  | [] => none
  | field :: rest =>
    match field.children?.bind (·.getLast?) with
    | some hashed =>
      if field.type = SEQUENCE ∧ hashed.type = OCTETSTRING ∧ hashed.string?.isSome then
        hashed.string?
      else messageImprint rest
    | none => messageImprint rest

def lastGeneralizedTime (fields : List Asn1) : Option Bytes :=
  fields.foldl (fun found f =>
    if f.type = GENERALIZEDTIME then f.string?.or found else found) none

/-- The longest INTEGER field, the first of several. -/
def longestInteger (fields : List Asn1) : Option Bytes :=
  fields.foldl (fun found f =>
    match f.type == INTEGER, f.string? with
    | true, some v => if v.length > (found.getD []).length then some v else found
    | _, _ => found) none

/-- A nonempty name right after a commonName OID among these siblings. -/
def siblingCommonName (forge : Forge) : List Asn1 → Option Bytes
  | c :: v :: rest =>
    match decide (c.type = OID ∧ c.string?.isSome ∧ safeOid forge c = OID_COMMON_NAME), v.string? with
    | true, some (b :: name) => some (b :: name)
    | _, _ => siblingCommonName forge (v :: rest)
  | _ => none

mutual
def extractFirstCommonName (forge : Forge) : Asn1 → Option Bytes
  | .primitive .. => none
  | .constructed _ _ children =>
    (siblingCommonName forge children).or (extractFromChildren forge children)
def extractFromChildren (forge : Forge) : List Asn1 → Option Bytes
  | [] => none
  | c :: rest => (extractFirstCommonName forge c).or (extractFromChildren forge rest)
end

def parseTstInfo (forge : Forge) (token : Asn1) : TstInfo :=
  match token.children?.bind (tokenSignedData forge) with
  | none => {}
  | some signedData =>
    match signedData.children?.bind (tstInfoBytes forge) with
    | none | some [] => {}
    | some (b :: bytes) =>
      match (forge.fromDer (b :: bytes)).toOption.bind Asn1.children? with
      | none => {}
      | some fields =>
        { messageImprintHashHex := (messageImprint fields).map bytesToHex
          genTime := lastGeneralizedTime fields
          serialHex := (longestInteger fields).map bytesToHex
          tsaCommonName := extractFirstCommonName forge signedData }

end EsigSuite
