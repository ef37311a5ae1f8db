import MMRelay.Lib.Affinity
import MMRelay.Lib.Table

/-!
# The schema migration of the message map

`initialize_database` (`db_utils.py`) on the table `message_map` and the three tables that an
interrupted or older migration can leave: `message_map_old_temp`, `message_map_stale_temp` and
`message_map_legacy`. A statement that SQLite refuses (a table that is missing or in the way, a
duplicate key, a missing column) is `none`.

* `Row`, `MessageMap`, `TableName`, `Db`: the tables;
* `Db.createTable`, `Db.rename`, `Db.drop`, `Db.insertOrIgnore`, `Db.insert`: the statements;
* `ensureMeshnet`, `recoverStaleTemp`, `mergeTemp`, `mergeLegacy`, `copyLive`, `rebuild`,
  `gatherRows`, `createIndex`, `initializeDatabase`.
-/

namespace MMRelay.Schema

open Sqlite

/-- The columns of a message beside its `matrix_event_id`. -/
structure Row where
  meshtasticId : NumValue
  matrixRoomId : Option String
  meshtasticText : Option String
  meshtasticMeshnet : Option String
  deriving DecidableEq

/-- A table of messages with the key `matrix_event_id`. A column stores its values as its declared
type says; without the meshnet column there are no meshnets. -/
structure MessageMap where
  idType : String
  hasMeshnet : Bool
  /-- `idx_message_map_meshtastic_id` is on this table. -/
  indexed : Bool
  table : Table String Row
  stored : ∀ r ∈ table.rows, (affinity idType).store r.2.meshtasticId = r.2.meshtasticId
  meshnet_none : hasMeshnet = false → ∀ r ∈ table.rows, r.2.meshtasticMeshnet = none

namespace MessageMap

/-- `_CREATE_TABLE_MESSAGE_MAP_SQL`. -/
def fresh : MessageMap where
  idType := "TEXT"
  hasMeshnet := true
  indexed := false
  table := Table.empty
  stored r hr := by cases hr
  meshnet_none h := by cases h

/-- `str(meshtastic_column[2]).upper() == "TEXT"`. -/
def isText (t : MessageMap) : Bool := t.idType.toUpper = "TEXT"

/-- `ALTER TABLE … ADD COLUMN meshtastic_meshnet TEXT`. -/
def addMeshnet (t : MessageMap) : MessageMap :=
  { t with hasMeshnet := true, meshnet_none := fun h => by cases h }

/-- The meshnet that a statement selects. -/
inductive Meshnet
  | column
  | null
  /-- The statement does not list the column, and a table without it is accepted. -/
  | omitted
  deriving DecidableEq

/-- The statement `INSERT … SELECT` is valid for these columns. -/
def Meshnet.valid (dst src : MessageMap) : Meshnet → Bool
  | .column => dst.hasMeshnet && src.hasMeshnet
  | .null => dst.hasMeshnet
  | .omitted => true

/-- The row that a statement with or without `CAST` stores in a column of type `idType`. -/
def select (idType : String) (cast : Bool) (meshnet : Meshnet) (r : Row) : Row :=
  { r with
    meshtasticId := (affinity idType).store
      (if cast then r.meshtasticId.castText else r.meshtasticId)
    meshtasticMeshnet := if meshnet = .column then r.meshtasticMeshnet else none }

/-- `INSERT OR IGNORE INTO … SELECT …`. -/
def insertOrIgnore (dst src : MessageMap) (cast : Bool) (meshnet : Meshnet) :
    Option MessageMap :=
  if h : meshnet.valid dst src = true then
    some
      { dst with
        table := dst.table.merge src.table (select dst.idType cast meshnet)
        stored := by
          intro r hr
          rcases Table.mem_merge.mp hr with hr | ⟨v, -, heq, -⟩
          · exact dst.stored r hr
          · rw [heq]
            exact Affinity.store_store _ _
        meshnet_none := by
          intro hm r hr
          rcases Table.mem_merge.mp hr with hr | ⟨v, -, heq, -⟩
          · exact dst.meshnet_none hm r hr
          · have hcol : meshnet ≠ .column := by
              rintro rfl
              rw [Meshnet.valid, hm, Bool.false_and] at h
              cases h
            rw [heq, select, if_neg hcol] }
  else none

/-- A key of the source is taken in the destination. -/
def conflicts (dst src : MessageMap) : Bool :=
  src.table.rows.any fun r => r.1.any dst.table.hasKey

/-- `INSERT INTO … SELECT …`: a key that is taken is an error. -/
def insert (dst src : MessageMap) (cast : Bool) (meshnet : Meshnet) : Option MessageMap :=
  if conflicts dst src then none else insertOrIgnore dst src cast meshnet

end MessageMap

open MMRelay.Schema.MessageMap (Meshnet)

inductive TableName
  | messageMap
  | oldTemp
  | staleTemp
  | legacy
  deriving DecidableEq

/-- The tables of the database. -/
abbrev Db := TableName → Option MessageMap

namespace Db

/-- `CREATE TABLE message_map …`. -/
def createTable (db : Db) : Option Db :=
  match db .messageMap with
  | some _ => none
  | none => some (Function.update db .messageMap (some MessageMap.fresh))

/-- `CREATE TABLE IF NOT EXISTS message_map …`. -/
def createTableIfNotExists (db : Db) : Db :=
  match db .messageMap with
  | some _ => db
  | none => Function.update db .messageMap (some MessageMap.fresh)

/-- `ALTER TABLE src RENAME TO dst`. -/
def rename (db : Db) (src dst : TableName) : Option Db :=
  match db src, db dst with
  | some t, none => some (Function.update (Function.update db src none) dst (some t))
  | _, _ => none

/-- `DROP TABLE IF EXISTS name`. -/
def drop (db : Db) (name : TableName) : Db := Function.update db name none

/-- `INSERT OR IGNORE INTO dst SELECT … FROM src`. -/
def insertOrIgnore (db : Db) (dst src : TableName) (cast : Bool) (meshnet : Meshnet) :
    Option Db := do
  let t ← (← db dst).insertOrIgnore (← db src) cast meshnet
  return Function.update db dst (some t)

/-- `INSERT INTO dst SELECT … FROM src`. -/
def insert (db : Db) (dst src : TableName) (cast : Bool) (meshnet : Meshnet) : Option Db := do
  let t ← (← db dst).insert (← db src) cast meshnet
  return Function.update db dst (some t)

/-- `_col_mesh in …` after `PRAGMA table_info(name)`. -/
def hasMeshnet (db : Db) (name : TableName) : Bool := (db name).any MessageMap.hasMeshnet

def exists? (db : Db) (name : TableName) : Bool := (db name).isSome

/-- The meshnet of a statement that is chosen by the columns of its source. -/
def meshnetOf (db : Db) (src : TableName) : Meshnet :=
  if db.hasMeshnet src then .column else .null

end Db

/-! ## `_initialize` -/

/-- Create the table and add the meshnet column. -/
def ensureMeshnet (db : Db) : Db :=
  let db := db.createTableIfNotExists
  if db.hasMeshnet .messageMap then db
  else Function.update db .messageMap ((db .messageMap).map MessageMap.addMeshnet)

/-- The stale temporary table becomes the temporary one or is merged into it, or into the live
table when only that one has the meshnet column. -/
def recoverStaleTemp (db : Db) : Option Db :=
  if db.exists? .staleTemp then
    if db.exists? .oldTemp then do
      let db ←
        if db.hasMeshnet .oldTemp then
          if db.hasMeshnet .staleTemp then db.insertOrIgnore .oldTemp .staleTemp false .column
          else db.insertOrIgnore .oldTemp .staleTemp false .omitted
        else
          if db.hasMeshnet .staleTemp then db.insertOrIgnore .messageMap .staleTemp false .column
          else db.insertOrIgnore .oldTemp .staleTemp false .omitted
      return db.drop .staleTemp
    else db.rename .staleTemp .oldTemp
  else some db

/-- `INSERT OR IGNORE INTO message_map SELECT … FROM src`, if there is such a table. -/
def insertIfExists (db : Db) (src : TableName) (cast : Bool) : Option Db :=
  if db.exists? src then db.insertOrIgnore .messageMap src cast (db.meshnetOf src) else some db

/-- A left-over table is merged into a live table with text ids. -/
def mergeFrom (src : TableName) (db : Db) : Option Db := do
  let db ← insertIfExists db src true
  return db.drop src

def mergeTemp : Db → Option Db := mergeFrom .oldTemp

def mergeLegacy : Db → Option Db := mergeFrom .legacy

/-- The live table becomes the temporary one, whose predecessor is put aside, and is copied into a
new table with text ids. -/
def copyLive (db : Db) : Option Db := do
  let db ←
    if db.exists? .oldTemp then (db.drop .staleTemp).rename .oldTemp .staleTemp else some db
  let db ← db.rename .messageMap .oldTemp
  let db ← db.createTable
  db.insert .messageMap .oldTemp true (db.meshnetOf .oldTemp)

/-- A live table with ids of another type is rebuilt, and the other tables are merged into it. -/
def rebuild (db : Db) : Option Db := do
  let preserved := db.exists? .oldTemp
  let db ← copyLive db
  let db ← insertIfExists db .legacy true
  let db := db.drop .oldTemp
  let db ←
    if preserved then do
      let db ← insertIfExists db .staleTemp false
      pure (db.drop .staleTemp)
    else some db
  return db.drop .legacy

/-- `CREATE INDEX IF NOT EXISTS idx_message_map_meshtastic_id ON message_map (meshtastic_id)`. -/
def createIndex (db : Db) : Db :=
  if [.messageMap, .oldTemp, .staleTemp, .legacy].any fun name => (db name).any MessageMap.indexed
  then db
  else Function.update db .messageMap ((db .messageMap).map fun t => { t with indexed := true })

/-- Bring all rows into a live table with text ids. -/
def gatherRows (isText : Bool) (db : Db) : Option Db :=
  if isText then (mergeTemp db).bind mergeLegacy else rebuild db

/-- `initialize_database` on these tables. -/
def initializeDatabase (db : Db) : Option Db := do
  let db := ensureMeshnet db
  let isText := (db .messageMap).any MessageMap.isText
  let db ← recoverStaleTemp db
  let db ← gatherRows isText db
  return createIndex db

end MMRelay.Schema
