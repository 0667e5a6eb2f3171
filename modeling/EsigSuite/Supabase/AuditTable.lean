import EsigSuite.Lib.Calendar
import EsigSuite.Lib.Digits
import EsigSuite.Lib.HashChain
import Mathlib.Data.List.MinMax
import Mathlib.Data.Prod.Lex
import Mathlib.Logic.Function.Basic

/-!
# esig_audit_log

`migrations/0002_esig_audit_hashchain.sql`: the canonical payload, the backfill
and the trigger that chains an inserted row, with the transactions and the
advisory lock around them. The columns no chain function reads are left out.
-/

namespace EsigSuite.AuditLog

open Lib

-- ---------------------------------------------------------------------------
-- Values
-- ---------------------------------------------------------------------------

/-- Text without surrogates, as a UTF-8 database has it. -/
abbrev Text := List Char

structure Uuid where
  value : BitVec 128
  deriving DecidableEq

def Uuid.text (u : Uuid) : Text :=
  let n := u.value.toNat
  Lib.hexDigits 8 (n / 16 ^ 24) ++ '-' :: (Lib.hexDigits 4 (n / 16 ^ 20) ++ '-' ::
    (Lib.hexDigits 4 (n / 16 ^ 16) ++ '-' :: (Lib.hexDigits 4 (n / 16 ^ 12) ++ '-' :: Lib.hexDigits 12 n)))

/-- Microseconds since 1970-01-01 00:00:00 UTC. -/
inductive Timestamptz
  | finite (micros : Int)
  | infinity
  | minusInfinity
  deriving DecidableEq

/-- The place in the order of timestamps. -/
def Timestamptz.rank : Timestamptz → Int ×ₗ Int
  | .minusInfinity => toLex (-1, 0)
  | .finite micros => toLex (0, micros)
  | .infinity => toLex (1, 0)

/-- The cast raises when the number does not fit. -/
def bigint (n : Int) : Option Int := if -2 ^ 63 ≤ n ∧ n < 2 ^ 63 then some n else none

/-- `(extract(epoch from t) * 1000000)::bigint`; the epoch of an infinite
timestamp is infinite and the cast raises. -/
def Timestamptz.epochMicros : Timestamptz → Option Int
  | .finite micros => bigint micros
  | _ => none

/-- What the functions of the database take from outside the migration. -/
structure Digests (Jsonb : Type) where
  /-- `metadata::text` -/
  jsonText : Jsonb → Text
  /-- `'{}'::jsonb` -/
  emptyObject : Jsonb
  /-- Digests of the UTF-8 bytes of a text. -/
  md5 : Text → BitVec 128
  sha256 : Text → BitVec 256

variable {Jsonb : Type}

def Digests.md5Hex (d : Digests Jsonb) (text : Text) : Text := Lib.hexDigits 32 (d.md5 text).toNat

def Digests.sha256Hex (d : Digests Jsonb) (text : Text) : Text := Lib.hexDigits 64 (d.sha256 text).toNat

-- ---------------------------------------------------------------------------
-- Rows
-- ---------------------------------------------------------------------------

structure AuditColumns (Jsonb : Type) where
  id : Uuid
  tenantId : Uuid
  actorUserId : Option Uuid
  action : Text
  targetTable : Option Text
  targetId : Option Uuid
  metadata : Jsonb
  createdAt : Timestamptz
  deriving DecidableEq

structure ChainColumns where
  seq : Int
  prevHash : Option Text
  rowHash : Text
  payloadCanonical : Text
  deriving DecidableEq

/-- The chain columns are NULL until the backfill has written all of them. -/
structure AuditRow (Jsonb : Type) extends AuditColumns Jsonb where
  chain : Option ChainColumns
  deriving DecidableEq

/-- A row as an INSERT gives it, with the column defaults; `none` is NULL. -/
structure NewRow (Jsonb : Type) where
  id : Option Uuid
  tenantId : Option Uuid
  actorUserId : Option Uuid
  action : Option Text
  targetTable : Option Text
  targetId : Option Uuid
  metadata : Option Jsonb
  createdAt : Option Timestamptz

def knownActions : List Text :=
  ["cert.created", "cert.rotated", "cert.deactivated", "pdf.rendered", "pdf.signed", "pdf.verified",
    "consent.recorded"].map String.toList

/-- The CHECK constraint `action_known`. -/
def actionKnown (action : Text) : Bool :=
  knownActions.contains action || "envelope.".toList.isPrefixOf action ||
    "verify.".toList.isPrefixOf action

-- ---------------------------------------------------------------------------
-- Canonicalization and hashing
-- ---------------------------------------------------------------------------

def esigAuditCanonical (d : Digests Jsonb) (tenantId : Uuid) (action : Text)
    (actorUserId : Option Uuid) (targetTable : Option Text) (targetId : Option Uuid)
    (createdAt : Timestamptz) (metadata : Option Jsonb) : Option Text := do
  let micros ← createdAt.epochMicros
  return "v1".toList
    ++ '|' :: (tenantId.text
    ++ '|' :: (action
    ++ '|' :: ((actorUserId.map Uuid.text).getD []
    ++ '|' :: (targetTable.getD []
    ++ '|' :: ((targetId.map Uuid.text).getD []
    ++ '|' :: (intText micros
    ++ '|' :: d.md5Hex (d.jsonText (metadata.getD d.emptyObject))))))))

def esigAuditRowHash (d : Digests Jsonb) (prevHash : Option Text) (canonical : Text) : Text :=
  d.sha256Hex (prevHash.getD [] ++ '|' :: canonical)

/-- The chain columns that the trigger and the backfill compute for a row. -/
def chainColumns (d : Digests Jsonb) (seq : Int) (prevHash : Option Text) (row : AuditColumns Jsonb) :
    Option ChainColumns := do
  let canonical ← esigAuditCanonical d row.tenantId row.action row.actorUserId row.targetTable
    row.targetId row.createdAt row.metadata
  return { seq, prevHash, rowHash := esigAuditRowHash d prevHash canonical,
           payloadCanonical := canonical }

/-- The tenant's row with the greatest `seq`. -/
def lastChained (table : List (AuditRow Jsonb)) (tenantId : Uuid) : Option ChainColumns :=
  @List.argmax _ Int instLatticeInt.toSemilatticeInf.toPartialOrder.toPreorder Int.decLt (·.seq)
    ((table.filter (·.tenantId = tenantId)).filterMap (·.chain))

def nextSeq (last : Option ChainColumns) : Int := (last.map (·.seq + 1)).getD 0

-- ---------------------------------------------------------------------------
-- Backfill
-- ---------------------------------------------------------------------------

/-- `ORDER BY tenant_id, created_at, id` -/
def backfillOrder (a b : AuditRow Jsonb) : Bool :=
  (toLex (a.tenantId.value.toNat, toLex (a.createdAt.rank, a.id.value.toNat)) :
      Nat ×ₗ (Int ×ₗ Int) ×ₗ Nat) ≤
    toLex (b.tenantId.value.toNat, toLex (b.createdAt.rank, b.id.value.toNat))

/-- The variables of the loop. -/
structure Backfill (Jsonb : Type) where
  table : List (AuditRow Jsonb)
  curTenant : Option Uuid
  nextSeq : Int
  prev : Option Text

/-- `UPDATE esig_audit_log SET … WHERE id = …` -/
def setChain (table : List (AuditRow Jsonb)) (id : Uuid) (chain : ChainColumns) :
    List (AuditRow Jsonb) :=
  table.map fun row => if row.id = id then { row with chain := some chain } else row

def backfillRow (d : Digests Jsonb) (s : Backfill Jsonb) (r : AuditRow Jsonb) :
    Option (Backfill Jsonb) := do
  let last := lastChained s.table r.tenantId
  let seq := if s.curTenant = some r.tenantId then s.nextSeq else nextSeq last
  let prev := if s.curTenant = some r.tenantId then s.prev else last.map (·.rowHash)
  let chain ← chainColumns d seq prev r.toAuditColumns
  return { table := setChain s.table r.id chain, curTenant := some r.tenantId, nextSeq := seq + 1,
           prev := some chain.rowHash }

/-- An exception undoes the migration. -/
def backfill (d : Digests Jsonb) (table : List (AuditRow Jsonb)) : Option (List (AuditRow Jsonb)) :=
  let pending := (table.filter (·.chain.isNone)).mergeSort backfillOrder
  (pending.foldlM (backfillRow d) ⟨table, none, 0, none⟩).map (·.table)

-- ---------------------------------------------------------------------------
-- Inserts
-- ---------------------------------------------------------------------------

/-- The row an INSERT writes: what the trigger `esig_audit_log_chain` computes from
the rows it sees, if the constraints of the table admit it. -/
def esigAuditLogChain (d : Digests Jsonb) (table : List (AuditRow Jsonb)) (now : Timestamptz)
    (new : NewRow Jsonb) : Option (AuditRow Jsonb) := do
  let id ← new.id
  let tenantId ← new.tenantId
  let action ← new.action
  let metadata ← new.metadata
  let row : AuditColumns Jsonb :=
    { id, tenantId, actorUserId := new.actorUserId, action, targetTable := new.targetTable,
      targetId := new.targetId, metadata, createdAt := new.createdAt.getD now }
  let last := lastChained table tenantId
  let chain ← chainColumns d (nextSeq last) (last.map (·.rowHash)) row
  if actionKnown action then some { row with chain := some chain } else none

/-- The committed rows, those of the open transactions, and who holds which
advisory lock. -/
structure Db (Jsonb : Type) where
  committed : List (AuditRow Jsonb)
  pending : Nat → List (AuditRow Jsonb)
  holder : Int → Option Nat

/-- What happens to the table after the migration. A lock is held to the end of the
transaction, and under it the trigger sees what is committed and the rows of its
own transaction. -/
inductive Step (d : Digests Jsonb) (hashtext : Text → Int) : Db Jsonb → Db Jsonb → Prop
  | lock {s} (tx : Nat) (key : Int) (hfree : s.holder key = none) :
      Step d hashtext s { s with holder := Function.update s.holder key (some tx) }
  | insert {s row} (tx : Nat) (now : Timestamptz) (new : NewRow Jsonb)
      (hrow : esigAuditLogChain d (s.committed ++ s.pending tx) now new = some row)
      (hlock : s.holder (hashtext row.tenantId.text) = some tx) :
      Step d hashtext s
        { s with pending := Function.update s.pending tx (s.pending tx ++ [row]) }
  | commit {s} (tx : Nat) :
      Step d hashtext s
        { committed := s.committed ++ s.pending tx
          pending := Function.update s.pending tx []
          holder := fun key => if s.holder key = some tx then none else s.holder key }
  | rollback {s} (tx : Nat) :
      Step d hashtext s
        { s with
          pending := Function.update s.pending tx []
          holder := fun key => if s.holder key = some tx then none else s.holder key }
  /-- The migration runs again; it locks the table. -/
  | migrate {s table} (hidle : ∀ tx, s.pending tx = []) (h : backfill d s.committed = some table) :
      Step d hashtext s { s with committed := table }

/-- A table from before the migration, which chains it, and what follows. -/
inductive Reachable (d : Digests Jsonb) (hashtext : Text → Int) : Db Jsonb → Prop
  | start {rows table : List (AuditRow Jsonb)} (hchain : ∀ row ∈ rows, row.chain = none)
      (hids : (rows.map (·.id)).Nodup) (h : backfill d rows = some table) :
      Reachable d hashtext ⟨table, fun _ => [], fun _ => none⟩
  | step {s s' : Db Jsonb} (hs : Reachable d hashtext s) (h : Step d hashtext s s') :
      Reachable d hashtext s'

end EsigSuite.AuditLog
