import EsigSuite.Pdf.PqSeal
import EsigSuite.Pdf.VerifyPdf

/-!
# Embedding and finding a seal

`esig-core/src/pq-embed.ts`. A seal is written at the end of the file and read
as the first match in the file.
-/

namespace EsigSuite

open Lib

def ascii (text : String) : Bytes := text.toList.map fun c => UInt8.ofNat c.toNat

-- ---------------------------------------------------------------------------
-- /\/Type\s*\/ESigPQSeal\/V\s+1\/Seal\(([A-Za-z0-9+\/=]+)\)/
-- ---------------------------------------------------------------------------

/-- The characters of `/Type`. -/
def typeKey : Bytes := [47, 84, 121, 112, 101]
/-- The characters of `/ESigPQSeal/V`. -/
def sealKey : Bytes := [47, 69, 83, 105, 103, 80, 81, 83, 101, 97, 108, 47, 86]
/-- The characters of `1/Seal(`. -/
def sealOpen : Bytes := [49, 47, 83, 101, 97, 108, 40]

/-- `([A-Za-z0-9+/=]+)` with what follows. -/
def base64? (bytes : Bytes) : Option (Bytes × Bytes) :=
  match bytes.takeWhile Base64.isText with
  | [] => none
  | text => some (text, bytes.dropWhile Base64.isText)

/-- The expression anchored at the first byte: the group, and what follows the
match. -/
def sealAt (bytes : Bytes) : Option (Bytes × Bytes) := do
  let rest ← literal? typeKey bytes
  let rest ← literal? sealKey (rest.dropWhile isSpace)
  let rest ← literal? sealOpen (← spaces? rest)
  let (text, rest) ← base64? rest
  return (text, ← literal? [41] rest)

/-- A match of the bytes from `start` up to `stop`. -/
structure SealMatch where
  start : Nat
  stop : Nat
  text : Bytes
  deriving DecidableEq

def SealMatch.shift (n : Nat) (m : SealMatch) : SealMatch := ⟨m.start + n, m.stop + n, m.text⟩

/-- The leftmost match in the file. -/
def matchSeal : Bytes → Option SealMatch
  | [] => none
  | b :: rest =>
    match sealAt (b :: rest) with
    | some (text, after) => some ⟨0, (b :: rest).length - after.length, text⟩
    | none => (matchSeal rest).map (.shift 1)

/-- The value the base64 text of a seal stands for. -/
def decodeSeal (text : Bytes) : Option Json :=
  match Json.parse (Utf8.decode (Base64.decode (text.map (·.toNat)))) with
  | some .null | none => none
  | some value => some value

def extractPqSeal (pdf : Bytes) : Option Json := (matchSeal pdf).bind fun m => decodeSeal m.text

def hasPqSeal (pdf : Bytes) : Bool := (matchSeal pdf).isSome

-- ---------------------------------------------------------------------------
-- The last trailer
-- ---------------------------------------------------------------------------

def leftmost (at? : Bytes → Option α) : Bytes → Option α
  | [] => none
  | b :: rest => (at? (b :: rest)).or (leftmost at? rest)

/-- `lastIndexOf` of a text that is not empty. -/
def lastIndexOf (key : Bytes) : Bytes → Option Nat
  | [] => none
  | b :: rest =>
    match lastIndexOf key rest with
    | some i => some (i + 1)
    | none => if key.isPrefixOf (b :: rest) then some 0 else none

/-- `/(\d+\s+\d+\s+R)/` after a key, runs of spaces made one space. -/
def refAt (key bytes : Bytes) : Option Bytes := do
  let rest ← literal? key bytes
  let (number, rest) ← digits? (← spaces? rest)
  let (generation, rest) ← digits? (← spaces? rest)
  let _ ← literal? [82] (← spaces? rest)
  return number ++ [32] ++ generation ++ [32, 82]

def sizeAt (bytes : Bytes) : Option Bytes := do
  let rest ← literal? (ascii "/Size") bytes
  let (digits, _) ← digits? (← spaces? rest)
  return digits

/-- `parseInt(digits, 10)` -/
def parseInt (digits : Bytes) : Double :=
  .round (digits.foldl (fun n c => 10 * n + (c.toNat - 48)) 0 : Nat)

structure LastTrailer where
  rootRef : Bytes
  infoRef : Option Bytes
  size : Double
  prevStartxref : Double

def readLastTrailer (pdf : Bytes) : Except String LastTrailer :=
  match lastIndexOf (ascii "startxref") pdf with
  | none => .error "pq-embed: no startxref found (not a classic PDF)"
  | some sxIdx =>
    match leftmost digits? (pdf.drop (sxIdx + 9)) with
    | none => .error "pq-embed: could not read previous startxref offset"
    | some (prev, _) =>
      match (lastIndexOf (ascii "trailer") pdf).filter (· ≤ sxIdx) with
      | none => .error "pq-embed: classic trailer not found (xref-stream PDFs are unsupported)"
      | some trIdx =>
        let dict := (pdf.take sxIdx).drop trIdx
        match leftmost (refAt (ascii "/Root")) dict, leftmost sizeAt dict with
        | none, _ => .error "pq-embed: trailer has no /Root"
        | _, none => .error "pq-embed: trailer has no /Size"
        | some rootRef, some size => .ok
          { rootRef, infoRef := leftmost (refAt (ascii "/Info")) dict, size := parseInt size,
            prevStartxref := parseInt prev }

-- ---------------------------------------------------------------------------
-- The incremental update
-- ---------------------------------------------------------------------------

/-- A number in a template string. -/
def numberText (n : Double) : Bytes := n.text.map fun c => UInt8.ofNat c.toNat

def lengthText (n : Nat) : Bytes := (Nat.toDigits 10 n).map fun c => UInt8.ofNat c.toNat

def increment : Double → Double
  | .finite x => .round (x + 1)
  | .infinite negative => .infinite negative

def padStart (width : Nat) (text : Bytes) : Bytes :=
  List.replicate (width - text.length) 48 ++ text

def sealB64 (s : PqSeal) : Bytes := Base64.encode (Utf8.encode (Json.stringify s.toJson))

/-- `/Type/ESigPQSeal/V 1/Seal(…)` -/
def sealDict (s : PqSeal) : Bytes :=
  typeKey ++ sealKey ++ [32] ++ sealOpen ++ sealB64 s ++ [41]

def objBuf (objNum : Double) (s : PqSeal) : Bytes :=
  numberText objNum ++ ascii " 0 obj\n<<" ++ sealDict s ++ ascii ">>\nendobj\n"

def xrefBuf (trailer : LastTrailer) (objOffset xrefOffset : Nat) : Bytes :=
  ascii "xref\n" ++ numberText trailer.size ++ ascii " 1\n" ++
    padStart 10 (lengthText objOffset) ++ ascii " 00000 n \n" ++ ascii "trailer\n<<\n" ++
    ascii "/Size " ++ numberText (increment trailer.size) ++ ascii "\n" ++
    ascii "/Root " ++ trailer.rootRef ++ ascii "\n" ++
    (match trailer.infoRef with
      | some infoRef => ascii "/Info " ++ infoRef ++ ascii "\n"
      | none => []) ++
    ascii "/Prev " ++ numberText trailer.prevStartxref ++ ascii "\n" ++ ascii ">>\nstartxref\n" ++
    lengthText xrefOffset ++ ascii "\n%%EOF\n"

def embedPqSeal (pdf : Bytes) (s : PqSeal) : Except String Bytes := do
  let trailer ← readLastTrailer pdf
  let head := pdf ++ ascii "\n"
  let withObj := head ++ objBuf trailer.size s
  return withObj ++ xrefBuf trailer head.length withObj.length

-- ---------------------------------------------------------------------------
-- The seal of `signPdf`
-- ---------------------------------------------------------------------------

structure PqSealOptions where
  keys : PqSigningKeys
  signedAt : JsString
  uuaid : Option JsString

structure SealedPdf where
  basePdf : Bytes
  pqKeyId : Option JsString
  pqMldsa65Fpr : Option JsString

/-- The steps of `signPdf` before the placeholder is added. -/
def sealPdf (sha256 : Bytes → Bytes) (pdf : Buffer) :
    Option PqSealOptions → Except String SealedPdf
  | none => .ok ⟨pdf.bytes, none, none⟩
  | some options => do
    let s ← buildPqSeal sha256 ⟨hexText (sha256 pdf.bytes), pdf.length, options.keys,
      options.signedAt, options.uuaid⟩ pdf.length_lt
    let basePdf ← embedPqSeal pdf.bytes s
    let pub := publicMaterialForKeys sha256 options.keys
    return ⟨basePdf, some pub.keyId, some pub.mldsa65Fpr⟩

end EsigSuite
