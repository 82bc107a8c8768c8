import Criteria.Database.Error
import Criteria.Json.Basic
import Criteria.RuleError

/-!
Failures of the service. The first three are the client's and are told in full. The others are the
system's: a client learns their code and no more, the details are for the log.
-/

namespace Criteria

inductive Failure where
  | validation (reason : String)
  | unreadable (reason : String)
  | ruleNotFound (id : Int64)
  | database (e : DatabaseError)
  | corruptData (reason : String)
  | internal (reason : String)
  deriving DecidableEq, Repr

namespace Failure

def status : Failure → Nat
  | validation _ => 400
  | unreadable _ => 400
  | ruleNotFound _ => 404
  | database _ => 500
  | corruptData _ => 500
  | internal _ => 500

def code : Failure → String
  | validation _ => "VALIDATION_ERROR"
  | unreadable _ => "RULE_PARSE_ERROR"
  | ruleNotFound _ => "RULE_NOT_FOUND"
  | database _ => "DATABASE_ERROR"
  | corruptData _ => "CORRUPT_DATA"
  | internal _ => "INTERNAL_ERROR"

def message : Failure → String
  | validation reason => "参数验证失败: " ++ reason
  | unreadable reason => "规则解析失败: " ++ reason
  | ruleNotFound id => "规则不存在: " ++ toString id.toInt
  | database e => "数据库错误: " ++ e.message
  | corruptData reason => "存储数据损坏: " ++ reason
  | internal reason => "内部错误: " ++ reason

def isSystem : Failure → Bool
  | database _ => true
  | corruptData _ => true
  | internal _ => true
  | _ => false

def clientMessage (f : Failure) : String :=
  if f.isSystem then "服务内部错误，请稍后重试" else f.message

def toJson (f : Failure) : Json :=
  .object [("success", .bool false), ("code", .text f.code), ("message", .text f.clientMessage),
    ("data", .null)]

def ofRuleError : RuleError → Failure
  | .unreadable reason => unreadable reason
  | .notFound id => ruleNotFound id

def ofStorageError : StorageError → Failure
  | .database e => database e
  | .migration e => internal (StorageError.migration e).message

end Failure

/-- An operation on a state that may fail; what happened to the state before the failure stays. -/
abbrev Action (σ α : Type) := σ → Except Failure α × σ

end Criteria
