import Criteria.Http.Token
import Criteria.Text.Blank

/-!
Media types, as far as it takes to tell whether a body is JSON.
-/

namespace Criteria.Http

/-- A media type in small letters: `application/problem+json` has the type `application`, the
subtype `problem` and the suffix `json`. -/
structure MediaType where
  type : String
  subtype : String
  suffix : Option String
  deriving DecidableEq, Repr

namespace MediaType

/-- What follows a quoted value, `s` being what comes after its opening quote; a quote right there
belongs to the value. -/
def afterQuoted? : List Char → Option (List Char)
  | [] => none
  | c :: rest =>
    if c.toNat ≤ 31 ∨ c.toNat = 127 then none
    else
      let after := rest.dropWhile fun c => c != '"' && 31 < c.toNat && c.toNat != 127
      match after with
      | '"' :: r => some r
      | _ => none

theorem afterQuoted?_length {s r : List Char} (h : afterQuoted? s = some r) :
    r.length < s.length := by
  unfold afterQuoted? at h
  split at h
  · simp at h
  · next c rest =>
    split at h
    · simp at h
    · simp only at h
      split at h
      · next heq =>
        simp only [Option.some.injEq] at h
        subst h
        have := (List.dropWhile_sublist (l := rest)
          (fun c => c != '"' && decide (31 < c.toNat) && c.toNat != 127)).length_le
        rw [heq] at this
        simp only [List.length_cons] at this ⊢
        omega
      · simp at h

/-- Whether a text that follows a semicolon is a list of parameters: names with values, which may be
quoted, separated by semicolons. -/
def areParameters (s : List Char) : Bool :=
  match s with
  | [] => true
  | ' ' :: rest => areParameters rest
  | c :: rest =>
    if isTokenChar c then
      match _h : rest.dropWhile isTokenChar with
      | '=' :: '"' :: value =>
        match _hq : afterQuoted? value with
        | none => false
        | some after =>
          match _hs : after.dropWhile (· == ' ') with
          | [] => true
          | ';' :: more => areParameters more
          | _ => false
      | '=' :: value =>
        match _hv : value.dropWhile isTokenChar with
        | [] => true
        | ';' :: more => value.head? != some ';' && areParameters more
        | _ => false
      | _ => false
    else false
termination_by s.length
decreasing_by
  · simp
  · have h₁ := (List.dropWhile_sublist isTokenChar (l := rest)).length_le
    have h₂ := afterQuoted?_length _hq
    have h₃ := (List.dropWhile_sublist (· == ' ') (l := after)).length_le
    rw [_h] at h₁
    rw [_hs] at h₃
    simp only [List.length_cons] at h₁ h₃ ⊢
    omega
  · have h₁ := (List.dropWhile_sublist isTokenChar (l := rest)).length_le
    have h₂ := (List.dropWhile_sublist isTokenChar (l := value)).length_le
    rw [_h] at h₁
    rw [_hv] at h₂
    simp only [List.length_cons] at h₁ h₂ ⊢
    omega

/-- The last plus sign of a subtype divides it from its suffix, unless it comes first. -/
def splitSuffix (s : List Char) : List Char × Option (List Char) :=
  match s with
  | [] => ([], none)
  | c :: rest =>
    if rest.contains '+' then
      let suffix := (rest.reverse.takeWhile (· != '+')).reverse
      (c :: rest.take (rest.length - suffix.length - 1), some suffix)
    else (s, none)

def parse? (text : String) : Option MediaType :=
  let (type, rest) := text.toList.span isTokenChar
  match rest with
  | '/' :: r =>
    let (subtype, parameters) := r.span isTokenChar
    let valid :=
      match parameters with
      | [] => true
      | ';' :: p => !subtype.isEmpty && areParameters p
      | _ => false
    if type.isEmpty || !valid then none
    else
      let (name, suffix) := splitSuffix (subtype.map Char.toLower)
      some ⟨String.ofList (type.map Char.toLower), String.ofList name, suffix.map String.ofList⟩
  | _ => none

def isJson (m : MediaType) : Bool :=
  m.type == "application" && (m.subtype == "json" || m.suffix == some "json")

end MediaType

end Criteria.Http
