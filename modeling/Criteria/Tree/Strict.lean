import Criteria.Tree.Parse
import Criteria.Tree.Walk

/-!
Strict reading. The tree is the one that `Tree.parse` reads; strictness only refuses texts whose
parentheses do not balance or whose conditions are not a field, one of the six comparators and a
target. The first fault is reported, and parentheses come before conditions.
-/

namespace Criteria

inductive ParseFault where
  /-- A closing parenthesis without an opening one, by its offset in bytes. -/
  | surplusParenthesis (offset : Nat)
  /-- Parentheses that are never closed, by their number. -/
  | missingParentheses (count : Nat)
  /-- A condition that is not three words. -/
  | malformedCondition (value : String)
  /-- A condition whose second word is no comparator. -/
  | unknownComparator (value : String)
  deriving DecidableEq, Repr

namespace ParseFault

def message : ParseFault → String
  | surplusParenthesis offset => "位置 " ++ toString offset ++ " 处存在多余的右括号"
  | missingParentheses count => "括号不匹配，缺少 " ++ toString count ++ " 个右括号"
  | malformedCondition value => "条件 '" ++ value ++ "' 必须是 <字段> <比较符> <值> 三段式"
  | unknownComparator value => "条件 '" ++ value ++ "' 的比较符无效"

end ParseFault

/-- How texts are read. -/
inductive Mode where
  /-- Every text is a tree; what is not a condition never holds. -/
  | lenient
  /-- Faulty texts are refused. -/
  | strict
  deriving DecidableEq, Repr

namespace Tree

/-- Checks the parentheses of a text from a place on, with its offset and the number of open
parentheses there. -/
def checkParentheses (offset depth : Nat) : List Char → Option ParseFault
  | [] => if depth = 0 then none else some (.missingParentheses depth)
  | c :: rest =>
    if c = '(' then checkParentheses (offset + c.utf8Size) (depth + 1) rest
    else if c = ')' then
      if depth = 0 then some (.surplusParenthesis offset)
      else checkParentheses (offset + c.utf8Size) (depth - 1) rest
    else checkParentheses (offset + c.utf8Size) depth rest

def checkCondition (c : Condition) : Option ParseFault :=
  if c.isMalformed then some (.malformedCondition c.value)
  else if c.comparator?.isNone then some (.unknownComparator c.value)
  else none

def fault? (text : String) : Option ParseFault :=
  (checkParentheses 0 0 text.toList).or ((parse text).leaves.findSome? checkCondition)

end Tree

namespace Mode

def parse (mode : Mode) (text : String) : Except ParseFault Tree :=
  match mode with
  | lenient => .ok (Tree.parse text)
  | strict =>
    match Tree.fault? text with
    | some fault => .error fault
    | none => .ok (Tree.parse text)

end Mode

end Criteria
