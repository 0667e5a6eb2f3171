import EsigSuite.Gateway.Auth
import EsigSuite.Lib.JsRegex
import EsigSuite.Lib.Pem
import EsigSuite.Lib.Quoted
import Mathlib.Data.List.DropRight

/-!
# The forwarded client certificate

`parseXfcc` of `esig-gateway/src/auth.ts`. It cuts the header at every comma and
semicolon; in the header that Envoy writes those in a quoted value are text.
-/

namespace EsigSuite.Gateway

open Lib

-- ---------------------------------------------------------------------------
-- decodeURIComponent
-- ---------------------------------------------------------------------------

def hexUnit? (c : UInt16) : Option Nat := Json.hexValue? (Char.ofNat c.toNat)

/-- The characters of UTF-8 that is well formed. -/
def decodeOctets (octets : List UInt8) : Except String JsString :=
  let text := Utf8.decode octets
  if Utf8.encode text = octets then .ok (JsString.ofText text) else .error "URIError"

/-- `octets` are the escapes just read. -/
def decodeEscapes (octets : List UInt8) : JsString → Except String JsString
  | [] => decodeOctets octets
  | 37 :: high :: low :: rest =>
    match hexUnit? high, hexUnit? low with
    | some h, some l => decodeEscapes (octets ++ [UInt8.ofNat (16 * h + l)]) rest
    | _, _ => .error "URIError"
  | c :: rest => do
    if c = 37 then .error "URIError"
    else return (← decodeOctets octets) ++ c :: (← decodeEscapes [] rest)

def decodeURIComponent (text : JsString) : Except String JsString := decodeEscapes [] text

-- ---------------------------------------------------------------------------
-- parseXfcc
-- ---------------------------------------------------------------------------

def trim (text : JsString) : JsString := (text.dropWhile isWhiteSpace).rdropWhile isWhiteSpace

structure XfccIdentities where
  uris : List JsString := []
  fingerprints : List JsString := []

section
variable (toLowerCase : JsString → JsString) (sha256Hex : List UInt8 → JsString)

/-- The key and the value of a piece that has both. -/
def readKv (kv : JsString) : Option (JsString × JsString) :=
  let eq := kv.idxOf 61
  if eq = 0 ∨ eq = kv.length then none
  else
    let k := toLowerCase (trim (kv.take eq))
    let v := trim (kv.drop (eq + 1))
    some (k, if v.head? = some 34 ∧ v.getLast? = some 34 then (v.drop 1).dropLast else v)

/-- Nothing where no base64 is left. -/
def fingerprintOf (v : JsString) : Except String (Option JsString) := do
  let pem ← decodeURIComponent v
  let base64 := (dropMarkers 0 pem).filter fun c => !isWhiteSpace c
  return if base64 = [] then none else some (sha256Hex (fromBase64 base64))

def addKv (found : XfccIdentities) (kv : JsString) : Except String XfccIdentities :=
  match readKv toLowerCase kv with
  | none => .ok found
  | some (k, v) =>
    if k = js "uri" then .ok { found with uris := found.uris ++ [v] }
    else if k = js "cert" then do
      return { found with
        fingerprints := found.fingerprints ++ (← fingerprintOf sha256Hex v).toList }
    else .ok found

def parseXfcc (value : JsString) : Except String XfccIdentities :=
  ((value.splitOn 44).flatMap (·.splitOn 59)).foldlM (addKv toLowerCase sha256Hex) {}

-- ---------------------------------------------------------------------------
-- The header as Envoy writes it
-- ---------------------------------------------------------------------------

/-- A value may stand in double quotes, in which a backslash escapes. -/
def XFCC : Quoting UInt16 := ⟨34, 92⟩

def isDelimiter (c : UInt16) : Bool := c == 44 || c == 59

/-- What the parser takes for a key and a value. -/
def fragments (value : JsString) : List (Quoting.Piece UInt16) :=
  XFCC.pieces (Quoting.everywhere isDelimiter) .plain value

/-- The keys and values of all elements. -/
def pairs (value : JsString) : List (Quoting.Piece UInt16) :=
  XFCC.pieces (Quoting.outside isDelimiter) .plain value

/-- A piece that a URI or a certificate is returned for. -/
def Identifies (kv : JsString) : Prop :=
  ∃ k v, readKv toLowerCase kv = some (k, v) ∧ (k = js "uri" ∨ k = js "cert")

/-- What is returned, and what it is read from, are top-level pairs of the header. -/
structure TopLevel (value : JsString) (found : XfccIdentities) : Prop where
  uris : ∀ u ∈ found.uris, ∃ p ∈ pairs value, readKv toLowerCase p.2 = some (js "uri", u)
  fingerprints : ∀ f ∈ found.fingerprints, ∃ p ∈ pairs value, ∃ v,
    readKv toLowerCase p.2 = some (js "cert", v) ∧ fingerprintOf sha256Hex v = .ok (some f)
  read : ∀ p ∈ fragments value, Identifies toLowerCase p.2 → p ∈ pairs value

end

-- ---------------------------------------------------------------------------
-- What is read
-- ---------------------------------------------------------------------------

section
variable {toLowerCase : JsString → JsString} {sha256Hex : List UInt8 → JsString}

/-- Every result stems from one of the pieces. -/
structure Stems (toLowerCase : JsString → JsString) (sha256Hex : List UInt8 → JsString)
    (kvs : List JsString) (found : XfccIdentities) : Prop where
  uris : ∀ u ∈ found.uris, ∃ kv ∈ kvs, readKv toLowerCase kv = some (js "uri", u)
  fingerprints : ∀ f ∈ found.fingerprints, ∃ kv ∈ kvs, ∃ v,
    readKv toLowerCase kv = some (js "cert", v) ∧ fingerprintOf sha256Hex v = .ok (some f)

theorem addKv_stems {kvs : List JsString} {found found' : XfccIdentities} {kv : JsString}
    (h : Stems toLowerCase sha256Hex kvs found) (hkv : kv ∈ kvs)
    (hadd : addKv toLowerCase sha256Hex found kv = .ok found') :
    Stems toLowerCase sha256Hex kvs found' := by
  unfold addKv at hadd
  split at hadd
  · cases hadd
    exact h
  next k v hread =>
    split at hadd
    next huri =>
      cases hadd
      refine ⟨fun u hu => ?_, h.fingerprints⟩
      rcases List.mem_append.mp hu with hu | hu
      · exact h.uris u hu
      · rw [List.mem_singleton.mp hu]
        exact ⟨kv, hkv, huri ▸ hread⟩
    split at hadd
    next hcert =>
      cases hfingerprint : fingerprintOf sha256Hex v with
      | error e => simp [hfingerprint, bind, Except.bind] at hadd
      | ok fingerprint =>
        simp only [hfingerprint, bind, Except.bind, pure, Except.pure, Except.ok.injEq] at hadd
        subst hadd
        refine ⟨h.uris, fun f hf => ?_⟩
        rcases List.mem_append.mp hf with hf | hf
        · exact h.fingerprints f hf
        · rw [Option.mem_toList] at hf
          exact ⟨kv, hkv, v, hcert ▸ hread, by rw [hfingerprint, hf]⟩
    next =>
      cases hadd
      exact h

theorem foldlM_stems {kvs rest : List JsString} {found found' : XfccIdentities}
    (h : Stems toLowerCase sha256Hex kvs found) (hrest : ∀ kv ∈ rest, kv ∈ kvs)
    (hfold : rest.foldlM (addKv toLowerCase sha256Hex) found = .ok found') :
    Stems toLowerCase sha256Hex kvs found' := by
  induction rest generalizing found with
  | nil =>
    cases hfold
    exact h
  | cons kv rest ih =>
    obtain ⟨hkv, hrest⟩ := List.forall_mem_cons.mp hrest
    rw [List.foldlM_cons] at hfold
    cases hadd : addKv toLowerCase sha256Hex found kv with
    | error e => simp [hadd, bind, Except.bind] at hfold
    | ok next =>
      rw [hadd] at hfold
      exact ih (addKv_stems h hkv hadd) hrest hfold

theorem fragments_snd (value : JsString) :
    (fragments value).map (·.2) = (value.splitOn 44).flatMap (·.splitOn 59) := by
  rw [fragments, Quoting.pieces_everywhere]
  exact (splitOnP_flatMap _ _ value).symm

theorem parseXfcc_stems (h : parseXfcc toLowerCase sha256Hex value = .ok found) :
    Stems toLowerCase sha256Hex ((fragments value).map (·.2)) found := by
  rw [parseXfcc, ← fragments_snd] at h
  exact foldlM_stems ⟨by simp, by simp⟩ (fun _ h => h) h

/-- The parser returns top-level pairs only, exactly when each piece that it returns
something for stands between separators outside quotes. -/
theorem parseXfcc_topLevel_iff (h : parseXfcc toLowerCase sha256Hex value = .ok found) :
    TopLevel toLowerCase sha256Hex value found ↔
      ∀ p ∈ fragments value, Identifies toLowerCase p.2 → XFCC.Bare .plain value p := by
  have hiff : ∀ p ∈ fragments value, (p ∈ pairs value ↔ XFCC.Bare .plain value p) := fun p hp =>
    Quoting.mem_outside_iff hp
  constructor
  · intro htop p hp hidentifies
    exact (hiff p hp).mp (htop.read p hp hidentifies)
  · intro hbare
    have hread : ∀ p ∈ fragments value, Identifies toLowerCase p.2 → p ∈ pairs value :=
      fun p hp hidentifies => (hiff p hp).mpr (hbare p hp hidentifies)
    obtain ⟨huris, hfingerprints⟩ := parseXfcc_stems h
    refine ⟨fun u hu => ?_, fun f hf => ?_, hread⟩
    · obtain ⟨kv, hkv, hreads⟩ := huris u hu
      obtain ⟨p, hp, rfl⟩ := List.mem_map.mp hkv
      exact ⟨p, hread p hp ⟨_, _, hreads, .inl rfl⟩, hreads⟩
    · obtain ⟨kv, hkv, v, hreads, hfingerprint⟩ := hfingerprints f hf
      obtain ⟨p, hp, rfl⟩ := List.mem_map.mp hkv
      exact ⟨p, hread p hp ⟨_, _, hreads, .inr rfl⟩, v, hreads, hfingerprint⟩

end

/-- `By=spiffe://gw;Subject="CN=a,O=b";URI=spiffe://peer` -/
def quotedSubject : JsString := js "By=spiffe://gw;Subject=\"CN=a,O=b\";URI=spiffe://peer"

def quotedUri : JsString := js "Subject=\"CN=a,URI=spiffe://peer,O=b\""

theorem parseXfcc_topLevel_sample : ∃ found,
    parseXfcc (·.map foldCase) (fun _ => []) quotedSubject = .ok found ∧
      found.uris = [js "spiffe://peer"] ∧
      TopLevel (·.map foldCase) (fun _ => []) quotedSubject found := by
  have hrun : ((parseXfcc (·.map foldCase) (fun _ => []) quotedSubject).toOption).map (·.uris) =
      some [js "spiffe://peer"] := by decide +kernel
  -- the pieces of the subject have other keys
  have hkeys : ∀ p ∈ fragments quotedSubject, (∀ kv ∈ readKv (·.map foldCase) p.2,
      kv.1 ≠ js "uri" ∧ kv.1 ≠ js "cert") ∨ XFCC.Bare .plain quotedSubject p := by decide +kernel
  obtain ⟨found, hfound, huris⟩ := Option.map_eq_some_iff.mp hrun
  have hparse : parseXfcc (·.map foldCase) (fun _ => []) quotedSubject = .ok found := by
    cases hok : parseXfcc (·.map foldCase) (fun _ => []) quotedSubject with
    | error e => simp [hok, Except.toOption] at hfound
    | ok found' => simpa [hok, Except.toOption] using hfound
  refine ⟨found, hparse, huris, (parseXfcc_topLevel_iff hparse).mpr ?_⟩
  rintro p hp ⟨k, v, hread, hk⟩
  refine (hkeys p hp).resolve_left fun hne => ?_
  obtain ⟨huri, hcert⟩ := hne (k, v) hread
  exact hk.elim huri hcert

/-- A piece of a subject is returned as a URI. -/
theorem parseXfcc_quoted_uri : ¬ ∀ (toLowerCase : JsString → JsString)
    (sha256Hex : List UInt8 → JsString) (value : JsString) (found : XfccIdentities),
    parseXfcc toLowerCase sha256Hex value = .ok found →
      ∀ u ∈ found.uris, ∃ p ∈ pairs value, readKv toLowerCase p.2 = some (js "uri", u) := by
  intro h
  have hrun : ((parseXfcc (·.map foldCase) (fun _ => []) quotedUri).toOption).map (·.uris) =
      some [js "spiffe://peer"] := by decide +kernel
  have hpairs : ∀ p ∈ pairs quotedUri,
      readKv (·.map foldCase) p.2 ≠ some (js "uri", js "spiffe://peer") := by decide +kernel
  cases hok : parseXfcc (·.map foldCase) (fun _ => []) quotedUri with
  | error e => simp [hok, Except.toOption] at hrun
  | ok found =>
    have huris : found.uris = [js "spiffe://peer"] := by simpa [hok, Except.toOption] using hrun
    obtain ⟨p, hp, hread⟩ := h _ _ _ found hok (js "spiffe://peer") (by simp [huris])
    exact hpairs p hp hread

end EsigSuite.Gateway
