import Criteria.Database.Tables

/-!
# What a recursive query finds

A recursive query starts from some numbers and follows the links of the rows
that it finds. `Reaches` says what that is, as a relation: the rows one can
come to. `reachable` computes it with a list of numbers still to be looked at,
and takes each row out of the table as it meets it, so that it ends on tables
whose links go round in a circle. Taking rows out loses nothing, because the
links of a row are put on the list at the moment the row is taken out; that is
the whole of the argument, and `mem_reachable_iff` is what comes of it.
-/

namespace Criteria.Database

theorem mem_rowsOf {id : Int64} {rows : List NodeRow} {r : NodeRow} :
    r ∈ rowsOf id rows ↔ r ∈ rows ∧ r.id = id := by
  simp [rowsOf]

theorem mem_without {id : Int64} {rows : List NodeRow} {r : NodeRow} :
    r ∈ without id rows ↔ r ∈ rows ∧ r.id ≠ id := by
  simp [without]

/-- A row that can be reached from some numbers along the links of rows. -/
inductive Reaches (rows : List NodeRow) (start : List Int64) : NodeRow → Prop where
  | start {r : NodeRow} (hr : r ∈ rows) (hs : r.id ∈ start) : Reaches rows start r
  | link {q r : NodeRow} (hq : Reaches rows start q) (hr : r ∈ rows)
      (hl : r.id ∈ q.links) : Reaches rows start r

namespace Reaches

variable {rows rows' : List NodeRow} {start start' : List Int64} {r : NodeRow}

theorem mem (h : Reaches rows start r) : r ∈ rows := by
  cases h with
  | start hr _ => exact hr
  | link _ hr _ => exact hr

/-- Numbers that hold the start and the links of their own rows hold whatever
can be reached. -/
theorem id_of_closed (S : Int64 → Prop) (hstart : ∀ id ∈ start, S id)
    (hlink : ∀ q ∈ rows, S q.id → ∀ id ∈ q.links, S id)
    (h : Reaches rows start r) : S r.id := by
  induction h with
  | start _ hs => exact hstart _ hs
  | link hq _ hl ih => exact hlink _ hq.mem ih _ hl

/-- What is reached in a part of the table from numbers that are at hand in
the whole is reached in the whole. -/
theorem widen (hrows : ∀ q ∈ rows', q ∈ rows)
    (hstart : ∀ id ∈ start', id ∈ start ∨ ∃ q, Reaches rows start q ∧ id ∈ q.links)
    (h : Reaches rows' start' r) : Reaches rows start r := by
  induction h with
  | start hr hs =>
      rcases hstart _ hs with hid | ⟨q, hq, hl⟩
      · exact .start (hrows _ hr) hid
      · exact .link hq (hrows _ hr) hl
  | link _ hr hl ih => exact .link ih (hrows _ hr) hl

theorem drop {id : Int64} {pending : List Int64} (hnone : rowsOf id rows = [])
    (h : Reaches rows (id :: pending) r) : Reaches rows pending r := by
  induction h with
  | start hr hs =>
      rcases List.mem_cons.1 hs with hid | hs
      · have := mem_rowsOf.2 ⟨hr, hid⟩
        simp [hnone] at this
      · exact .start hr hs
  | link _ hr hl ih => exact .link ih hr hl

/-- A row that is not itself of the number at hand is reached without the
rows of that number, once their links are at hand instead. -/
theorem take {id : Int64} {pending : List Int64}
    (h : Reaches rows (id :: pending) r) :
    r ∈ rowsOf id rows ∨
      Reaches (without id rows)
        ((rowsOf id rows).flatMap NodeRow.links ++ pending) r := by
  induction h with
  | @start r hr hs =>
      by_cases hid : r.id = id
      · exact Or.inl (mem_rowsOf.2 ⟨hr, hid⟩)
      · have hs := (List.mem_cons.1 hs).resolve_left hid
        exact Or.inr (.start (mem_without.2 ⟨hr, hid⟩)
          (List.mem_append_right _ hs))
  | @link q r _ hr hl ih =>
      by_cases hid : r.id = id
      · exact Or.inl (mem_rowsOf.2 ⟨hr, hid⟩)
      · have hr := mem_without.2 ⟨hr, hid⟩
        rcases ih with hq | hq
        · have hl := List.mem_flatMap.2 ⟨q, hq, hl⟩
          exact Or.inr (.start hr (List.mem_append_left _ hl))
        · exact Or.inr (.link hq hr hl)

end Reaches

/-- The list that a recursive query works off holds the rows that can be
reached, and no others. -/
theorem mem_reachable_iff {rows : List NodeRow} {start : List Int64} {r : NodeRow} :
    r ∈ reachable rows start ↔ Reaches rows start r := by
  fun_induction reachable rows start with
  | case1 rows =>
      refine iff_of_false List.not_mem_nil fun h => ?_
      exact h.id_of_closed (fun _ => False) (fun _ h => by cases h) (fun _ _ h => h.elim)
  | case2 rows id pending hnone ih =>
      rw [ih]
      refine ⟨fun h => ?_, Reaches.drop hnone⟩
      exact h.widen (fun _ hq => hq) fun _ hs => Or.inl (List.mem_cons_of_mem _ hs)
  | case3 rows id pending hsome ih =>
      rw [List.mem_append, ih]
      refine ⟨fun h => ?_, Reaches.take⟩
      have hhead : ∀ q ∈ rowsOf id rows, Reaches rows (id :: pending) q := fun q hq =>
        have hq := mem_rowsOf.1 hq
        .start hq.1 (hq.2 ▸ List.mem_cons_self)
      rcases h with h | h
      · exact hhead r h
      · refine h.widen (fun q hq => (mem_without.1 hq).1) fun x hx => ?_
        rcases List.mem_append.1 hx with hx | hx
        · obtain ⟨q, hq, hl⟩ := List.mem_flatMap.1 hx
          exact Or.inr ⟨q, hhead q hq, hl⟩
        · exact Or.inl (List.mem_cons_of_mem _ hx)

end Criteria.Database
