/-!
What a database and its schema can answer instead of a result.
-/

namespace Criteria

inductive DatabaseError where
  | poolTimedOut
  | poolClosed
  | rowNotFound
  | columnNotFound (name : String)
  | unexpectedData (detail : String)
  /-- The database itself refused a statement. -/
  | refused (detail : String)
  deriving DecidableEq, Repr

namespace DatabaseError

def message : DatabaseError → String
  | poolTimedOut => "pool timed out while waiting for an open connection"
  | poolClosed => "attempted to acquire a connection on a closed pool"
  | rowNotFound => "no rows returned by a query that expected to return at least one row"
  | columnNotFound name => "no column found for name: " ++ name
  | unexpectedData detail => "encountered unexpected or invalid data: " ++ detail
  | refused detail => "error returned from database: " ++ detail

end DatabaseError

/-- A schema that does not fit the migrations the program knows; each error names a version. -/
inductive MigrationError where
  | missing (version : Int64)
  | modified (version : Int64)
  | unfinished (version : Int64)
  deriving DecidableEq, Repr

namespace MigrationError

def message : MigrationError → String
  | missing v =>
    "migration " ++ toString v.toInt
      ++ " was previously applied but is missing in the resolved migrations"
  | modified v => "migration " ++ toString v.toInt ++ " was previously applied but has been modified"
  | unfinished v =>
    "migration " ++ toString v.toInt
      ++ " is partially applied; fix and remove row from `_sqlx_migrations` table"

end MigrationError

inductive StorageError where
  | database (e : DatabaseError)
  | migration (e : MigrationError)
  deriving DecidableEq, Repr

namespace StorageError

def message : StorageError → String
  | database e => "数据库错误: " ++ e.message
  | migration e => "数据库迁移失败: " ++ e.message

end StorageError

end Criteria
