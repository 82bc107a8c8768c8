/-!
What can go wrong with rules themselves. Deciding never fails; these errors come from strict reading and
from the store.
-/

namespace Criteria

inductive RuleError where
  /-- A text is refused, for the given reason. -/
  | unreadable (reason : String)
  | notFound (id : Int64)
  deriving DecidableEq, Repr

namespace RuleError

def message : RuleError → String
  | unreadable reason => "规则解析失败: " ++ reason
  | notFound id => "规则未找到: " ++ toString id.toInt

end RuleError

end Criteria
