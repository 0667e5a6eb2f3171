import EsigSuite.Supabase.AuditTable
import Mathlib.Data.List.SplitOn

/-!
# verifyAuditChain

`audit-chain.ts`: the rows of a tenant are fetched page by page in the order of
`seq` and checked one after another. `postgrest` is the server it talks to: the
committed rows, with timestamps in the time zone of the session.
-/

namespace EsigSuite.AuditLog

open Lib

variable {Jsonb : Type}

-- ---------------------------------------------------------------------------
-- Rows as the client gets them
-- ---------------------------------------------------------------------------

/-- `seq` is a number or its text; both are compared as a number. -/
structure RawChainRow where
  id : Text
  seq : Option Int
  prevHash : Option Text
  rowHash : Option Text
  payloadCanonical : Option Text
  action : Text
  actorUserId : Option Text
  targetTable : Option Text
  targetId : Option Text
  createdAt : Text
  tenant : Option Text

structure Response where
  data : Option (List RawChainRow)
  error : Option Text
  count : Option Nat

structure AuditChainFailure where
  seq : Int
  id : Text
  reason : Text
  deriving DecidableEq

structure VerifyAuditChainResult where
  ok : Bool
  checkedRows : Nat
  firstBrokenSeq : Option Int
  failures : List AuditChainFailure
  deriving DecidableEq

-- ---------------------------------------------------------------------------
-- Timestamps
-- ---------------------------------------------------------------------------

/-- The text has the characters of the mask, a digit for every `0`. -/
def fits : Text → Text → Bool
  | [], [] => true
  | m :: mask, c :: text => (if m = '0' then c.isDigit else c == m) && fits mask text
  | _, _ => false

structure TimestampMatch where
  date : Text
  time : Text
  fraction : Option Text
  offset : Text

/-- `Z|[+-]\d{2}(?::?\d{2})?` -/
def isOffset : Text → Bool
  | ['Z'] => true
  | sign :: rest => (sign == '+' || sign == '-') &&
      (fits "00".toList rest || fits "0000".toList rest || fits "00:00".toList rest)
  | [] => false

/-- A fraction ends where the offset begins, which is not a digit. -/
def matchTimestamptz (value : Text) : Option TimestampMatch :=
  let date := value.take 10
  let time := (value.drop 11).take 8
  let rest := value.drop 19
  let fraction := if rest.head? = some '.' then some ((rest.drop 1).takeWhile (·.isDigit)) else none
  let offset := if rest.head? = some '.' then (rest.drop 1).dropWhile (·.isDigit) else rest
  if fits "0000-00-00".toList date && ((value.drop 10).head?.any fun c => c == 'T' || c == ' ') &&
      fits "00:00:00".toList time && fraction.all (fun digits => 1 ≤ digits.length && digits.length ≤ 6) &&
      isOffset offset then
    some { date, time, fraction, offset }
  else none

/-- Offsets with hours only, or without a colon, get what `Date.parse` wants. -/
def wholeOffset (offset : Text) : Text :=
  if fits "00".toList (offset.drop 1) then offset ++ ":00".toList
  else if fits "0000".toList (offset.drop 1) then offset.take 3 ++ ':' :: offset.drop 3
  else offset

def within (low high n : Nat) : Bool := low ≤ n && n ≤ high

/-- Minutes an offset `Z` or `±HH:mm` is ahead of UTC. -/
def offsetMinutes (offset : Text) : Option Int :=
  let hours := readNat ((offset.drop 1).take 2)
  let minutes := readNat ((offset.drop 4).take 2)
  if offset = ['Z'] then some 0
  else if within 0 23 hours && within 0 59 minutes then
    some ((if offset.head? = some '-' then -1 else 1) * (60 * hours + minutes))
  else none

/-- `Date.parse` of `YYYY-MM-DDTHH:mm:ss` with an offset, in milliseconds. -/
def dateParse (text : Text) : Option Int := do
  let number (at' width : Nat) := readNat ((text.drop at').take width)
  let offset ← offsetMinutes (text.drop 19)
  let date : Date := ⟨number 0 4, number 5 2, number 8 2⟩
  let hour := number 11 2
  let minute := number 14 2
  let second := number 17 2
  if within 1 12 date.month && within 1 31 date.day && within 0 59 minute && within 0 59 second &&
      (within 0 23 hour || hour == 24 && minute == 0 && second == 0) then
    some (1000 * (86400 * date.toDays + 3600 * hour + 60 * minute + second - 60 * offset))
  else none

/-- Adding an integer that is a double. -/
def plus (x : Double) (n : Int) : Double :=
  match x with
  | .finite value => Double.round (value + n)
  | .infinite negative => .infinite negative

/-- `none` is an exception. -/
def timestamptzToEpochMicros (value : Text) : Option Double := do
  let m ← matchTimestamptz value
  let baseMs ← dateParse (m.date ++ 'T' :: (m.time ++ wholeOffset m.offset))
  let digits := m.fraction.getD ['0']
  let fraction := readNat (digits ++ List.replicate (6 - digits.length) '0')
  return plus (Double.round (baseMs * 1000 : Int)) fraction

-- ---------------------------------------------------------------------------
-- The checks of a row
-- ---------------------------------------------------------------------------

/-- `Array.prototype.join("|")` -/
def join : List Text → Text
  | [] => []
  | [text] => text
  | text :: rest => text ++ '|' :: join rest

def canonicalFields : List Text :=
  ["version", "tenant_id", "action", "actor_user_id", "target_table", "target_id",
    "created_at_epoch_us", "metadata_md5"].map String.toList

def joinComma : List Text → Text
  | [] => []
  | [text] => text
  | text :: rest => text ++ ", ".toList ++ joinComma rest

def describeCanonicalMismatch (expected actual : Text) : Text :=
  let e := expected.splitOn '|'
  let a := actual.splitOn '|'
  let diff := (canonicalFields.zip (e.zip a)).filterMap fun p =>
    if p.2.1 = p.2.2 then none else some p.1
  if e.length = canonicalFields.length ∧ a.length = canonicalFields.length ∧ diff ≠ [] then
    "payload_canonical disagrees with row columns on: ".toList ++ joinComma diff
  else "payload_canonical disagrees with row columns".toList

/-- What stands behind the last bar, if there is one. -/
def md5Part (payload : Text) : Text :=
  if '|' ∈ payload then payload.rtakeWhile (· != '|') else []

def isMd5Hex (text : Text) : Bool := text.length == 32 && text.all isHexDigit

/-- The canonical payload rebuilt from the columns of a row. -/
def expectedCanonical (row : RawChainRow) (epochField md5 : Text) : Text :=
  join ["v1".toList, row.tenant.getD [], row.action, row.actorUserId.getD [],
    row.targetTable.getD [], row.targetId.getD [], epochField, md5]

def quoted (text : Text) : Text := '"' :: (text ++ ['"'])

/-- The cross-check of the columns; the result is the reason it fails. -/
def crossCheck (row : RawChainRow) (payload : Text) : List Text :=
  if isMd5Hex (md5Part payload) then
    match timestamptzToEpochMicros row.createdAt with
    | none => ["unparseable created_at ".toList ++ quoted row.createdAt ++
        " — cannot cross-check payload_canonical".toList]
    | some micros =>
      let expected := expectedCanonical row micros.text (md5Part payload)
      if expected ≠ payload then [describeCanonicalMismatch expected payload] else []
  else ["malformed payload_canonical: missing metadata md5 tail".toList]

section
variable (sha256Hex : Text → Text)

def rowReasons (i : Nat) (expectedPrev : Option Text) (row : RawChainRow) : List Text :=
  match row.seq, row.rowHash, row.payloadCanonical with
  | some seq, some rowHash, some payload =>
    let recomputed := sha256Hex (row.prevHash.getD [] ++ '|' :: payload)
    (if seq ≠ i then
      ["seq discontinuity: expected ".toList ++ intText i ++ ", found ".toList ++ intText seq]
    else []) ++
    (if row.prevHash ≠ expectedPrev then
      [("prev_hash does not match the previous row_hash " ++
        "(chain broken: row deleted, reordered, or suffix re-hashed)").toList]
    else []) ++
    (if recomputed ≠ rowHash then
      ["row_hash mismatch: stored ".toList ++ rowHash ++ ", recomputed ".toList ++ recomputed]
    else []) ++
    crossCheck row payload
  | _, _, _ =>
    ["chain columns missing (row predates the 0002 backfill, or was nulled out)".toList]

def checkRow (i : Nat) (expectedPrev : Option Text) (row : RawChainRow) : List AuditChainFailure :=
  (rowReasons sha256Hex i expectedPrev row).map fun reason => ⟨row.seq.getD i, row.id, reason⟩

/-- The loop over the rows, from position `i` on. -/
def checkRows : Nat → Option Text → List RawChainRow → List AuditChainFailure
  | _, _, [] => []
  | i, expectedPrev, row :: rest =>
    checkRow sha256Hex i expectedPrev row ++ checkRows (i + 1) row.rowHash rest

def verifyRows (rows : List RawChainRow) : VerifyAuditChainResult :=
  let failures := checkRows sha256Hex 0 none rows
  { ok := failures.isEmpty, checkedRows := rows.length,
    firstBrokenSeq := failures.head?.map (·.seq), failures }

end

-- ---------------------------------------------------------------------------
-- Fetching
-- ---------------------------------------------------------------------------

/-- The answer to a range of rows, counted on request. -/
abbrev Client := (first last : Nat) → (counted : Bool) → Response

/-- The rows and the number the server reports. -/
structure Fetched where
  rows : List RawChainRow
  serverTotal : Option Nat

/-- The loop over the pages; it runs until a page is short. -/
def fetchPages (client : Client) (pageSize : Nat) : Nat → Nat → Fetched → Option (Except Text Fetched)
  | 0, _, _ => none
  | fuel + 1, first, found =>
    let response := client first (first + pageSize - 1) (first == 0)
    match response.error with
    | some message => some (.error ("verifyAuditChain: ".toList ++ message))
    | none =>
      let page := response.data.getD []
      let found : Fetched :=
        { rows := found.rows ++ page
          serverTotal := if first = 0 then response.count else found.serverTotal }
      if page.length < pageSize then some (.ok found)
      else fetchPages client pageSize fuel (first + pageSize) found

def truncated (rows total : Nat) : VerifyAuditChainResult :=
  { ok := false, checkedRows := rows, firstBrokenSeq := none,
    failures := [{ seq := rows, id := [], reason :=
      "fetched ".toList ++ intText rows ++ " rows but the server reports ".toList ++ intText total ++
        (" — a row cap (e.g. PostgREST max-rows) is truncating pages; " ++
          "lower pageSize below the cap").toList }] }

/-- `none` when the fuel runs out before a short page. -/
def verifyAuditChain (sha256Hex : Text → Text) (fuel : Nat) (client : Client) (pageSize : Nat) :
    Option (Except Text VerifyAuditChainResult) :=
  (fetchPages client pageSize fuel 0 ⟨[], none⟩).map fun fetched => fetched.map fun found =>
    if found.serverTotal.all (· = found.rows.length) then verifyRows sha256Hex found.rows
    else truncated found.rows.length (found.serverTotal.getD 0)

-- ---------------------------------------------------------------------------
-- The server
-- ---------------------------------------------------------------------------

/-- The time zone of a session: seconds ahead of UTC, less than 16 hours. -/
structure TimeZone where
  offset : Int → Int
  bound : ∀ t, (offset t).natAbs < 57600

def yearText (year : Int) : Text :=
  padded 4 (if 0 < year then year.toNat else (1 - year).toNat)

def fractionText (micros : Nat) : Text :=
  let digits := (padded 6 micros).rdropWhile (· == '0')
  if digits = [] then [] else '.' :: digits

def offsetText (offset : Int) : Text :=
  let n := offset.natAbs
  (if offset < 0 then '-' else '+') :: (padded 2 (n / 3600) ++ ':' :: (padded 2 (n / 60 % 60) ++
    if n % 60 = 0 then [] else ':' :: padded 2 (n % 60)))

/-- A timestamp in JSON: ISO 8601 with the offset of the session. -/
def timestamptzText (zone : TimeZone) : Timestamptz → Text
  | .infinity => "infinity".toList
  | .minusInfinity => "-infinity".toList
  | .finite t =>
    let offset := zone.offset t
    let localMicros := t + 1000000 * offset
    let date := Date.ofDays (localMicros / 86400000000)
    let inDay := (localMicros % 86400000000).toNat
    let second := inDay / 1000000
    yearText date.year ++ '-' :: (padded 2 date.month ++ '-' :: (padded 2 date.day ++ 'T' ::
      (padded 2 (second / 3600) ++ ':' :: (padded 2 (second / 60 % 60) ++ ':' ::
        (padded 2 (second % 60) ++ (fractionText (inDay % 1000000) ++ (offsetText offset ++
          if 0 < date.year then [] else " BC".toList)))))))

def served (zone : TimeZone) (row : AuditRow Jsonb) : RawChainRow :=
  { id := row.id.text
    seq := row.chain.map (·.seq)
    prevHash := row.chain.bind (·.prevHash)
    rowHash := row.chain.map (·.rowHash)
    payloadCanonical := row.chain.map (·.payloadCanonical)
    action := row.action
    actorUserId := row.actorUserId.map Uuid.text
    targetTable := row.targetTable
    targetId := row.targetId.map Uuid.text
    createdAt := timestamptzText zone row.createdAt
    tenant := some row.tenantId.text }

/-- `ORDER BY seq`, NULL last. -/
def seqOrder (a b : AuditRow Jsonb) : Bool :=
  match a.chain, b.chain with
  | some x, some y => x.seq ≤ y.seq
  | none, some _ => false
  | _, none => true

def tenantRows (table : List (AuditRow Jsonb)) (tenantId : Uuid) : List (AuditRow Jsonb) :=
  (table.filter (·.tenantId = tenantId)).mergeSort seqOrder

/-- PostgREST over the rows of an answer, with its limit on their number. -/
def pages (maxRows : Option Nat) (rows : List RawChainRow) : Client := fun first last counted =>
  let page := (rows.drop first).take (last + 1 - first)
  { data := some ((maxRows.map page.take).getD page)
    error := none
    count := if counted then some rows.length else none }

def postgrest (zone : TimeZone) (maxRows : Option Nat) (rows : List (AuditRow Jsonb)) : Client :=
  pages maxRows (rows.map (served zone))

end EsigSuite.AuditLog
