import Criteria.Proofs.Reading
import Criteria.Proofs.Stored

/-!
# Trees, rules and groups are read back

A tree nests in JSON as deep as it is high, since each of its nodes is one object, and
its value is read as the tree it was made from (`Tree.ofJsonWithin?_toJson`). So all
that can go wrong is the depth, of which a reader allows 127 arrays and objects at
once. A rule and a group spend some of them on themselves. Their readers go through
the fields of a record one by one, in whatever order they come; as they are written,
that is the order of the record (`Draft.readRecord_inOrder`).

A service reads texts of up to 512 levels, and so there are rules that it shows and a
client cannot read (`decode_render_iff_shallow`).
-/

namespace Criteria

open Json

namespace Tree

theorem integral_condition (c : Condition) : c.toJson.Integral := by
  have htext : ∀ s : Option String, (Json.ofText? s).Integral := by
    intro s
    cases s with
    | none => exact .null
    | some s => exact .text s
  refine .object ?_
  simp only [List.forall_mem_cons]
  exact ⟨.text _, .text _, htext _, htext _, htext _, fun _ h => by cases h⟩

theorem integral_toJson (t : Tree) : t.toJson.Integral := by
  induction t with
  | empty => exact .null
  | leaf c => exact integral_condition c
  | branch c left right ihl ihr =>
      refine .object ?_
      simp only [List.forall_mem_cons]
      exact ⟨.text _, .text _, ihl, ihr, fun _ h => by cases h⟩

theorem nesting_toJson (t : Tree) : t.toJson.nesting = t.height := by
  have htext : ∀ s : Option String, (Json.ofText? s).nesting = 0 := by
    intro s
    cases s <;> rfl
  induction t with
  | empty => rfl
  | leaf c => simp [toJson, Condition.toJson, nesting, nestingMembers, htext, height]
  | branch c left right ihl ihr =>
      simp [toJson, Connective.toJson, nesting, nestingMembers, ihl, ihr, height]

theorem optionalText?_ofText? (s : Option String) : optionalText? (Json.ofText? s) = some s := by
  cases s <;> rfl

/-- The value of a tree is read as the tree, with any allowance of its height or
more. -/
theorem ofJsonWithin?_toJson {t : Tree} (ht : t ≠ empty) {limit : Nat} (h : t.height ≤ limit)
    (inner : Bool) : ofJsonWithin? limit inner t.toJson = some t := by
  induction t generalizing limit inner with
  | empty => exact absurd rfl ht
  | leaf c =>
      cases limit with
      | zero => exact absurd h (Nat.not_succ_le_zero 0)
      | succ limit =>
          have hfields : fields? inner c.toJson = some (.condition, [.text c.value,
              .ofText? c.field, .ofText? c.comparison, .ofText? c.target]) := rfl
          rw [toJson, ofJsonWithin?, hfields]
          simp only [Option.bind_eq_bind, Option.bind_some, optionalText?_ofText?]
          rfl
  | branch c left right ihl ihr =>
      cases limit with
      | zero => exact absurd h (Nat.not_succ_le_zero _)
      | succ limit =>
          have hfields : fields? inner (branch c left right).toJson =
              some (.operator, [c.toJson, left.toJson, right.toJson]) := rfl
          have hconnective : Connective.ofJson? isUnit c.toJson = some c := c.ofWord?_word
          -- A missing child is `null`, and no other tree is.
          have hmissing : ∀ t : Tree, t.toJson = .null → t = empty := by
            intro t hnull
            cases t with
            | empty => rfl
            | leaf c => cases hnull
            | branch c left right => cases hnull
          rw [height] at h
          rw [ofJsonWithin?, hfields]
          simp only [Option.bind_eq_bind, Option.bind_some, hconnective]
          refine Option.bind_eq_some_iff.2 ⟨left, ?_, Option.bind_eq_some_iff.2 ⟨right, ?_, rfl⟩⟩
          · split
            · next hnull => rw [hmissing left hnull]
            · next hthere => exact ihl (fun hempty => hthere (hempty ▸ rfl)) (by omega) true
          · split
            · next hnull => rw [hmissing right hnull]
            · next hthere => exact ihr (fun hempty => hthere (hempty ▸ rfl)) (by omega) true

theorem ofJson?_toJson {t : Tree} (ht : t ≠ empty) : ofJson? t.toJson = some t :=
  ofJsonWithin?_toJson ht (Nat.le_of_eq t.nesting_toJson.symm) false

theorem read_ofJson {t : Tree} (ht : t ≠ empty) (limit : Nat) :
    read limit (.ofJson t.toJson) = if t.depth ≤ limit then .ok t else .error .malformed := by
  rw [read, Draft.readAny_ofJson t.integral_toJson, nesting_toJson, depth_eq_height]
  by_cases h : t.height ≤ limit
  · rw [if_pos h, if_pos h]
    show Draft.required (ofJson? t.toJson) = _
    rw [ofJson?_toJson ht]
    rfl
  · rw [if_neg h, if_neg h]
    rfl

/-- The empty tree is written as `null`, and is read as no tree at any depth. -/
theorem readOption_ofJson (t : Tree) (limit : Nat) :
    Draft.readOption (read limit) (.ofJson t.toJson) =
      if t.depth ≤ limit then .ok (if t.isEmpty then none else some t) else .error .malformed := by
  have hread : t ≠ empty → Draft.readOption (read limit) (.ofJson t.toJson) =
      some <$> read limit (.ofJson t.toJson) := by
    intro ht
    cases t with
    | empty => exact absurd rfl ht
    | leaf c => rfl
    | branch c left right => rfl
  cases ht : t.isEmpty with
  | true =>
      cases t with
      | empty => rw [if_pos]; exacts [rfl, Nat.zero_le _]
      | leaf c => cases ht
      | branch c left right => cases ht
  | false =>
      have hne : t ≠ empty := fun h => by rw [h] at ht; cases ht
      rw [hread hne, read_ofJson hne]
      split <;> rfl

end Tree

/-! ## Records -/

namespace Draft

variable {σ : Type}

theorem lookup_of_mem {fields : Fields σ} (hkeys : (fields.map (·.1)).Nodup)
    {f : String × (σ → Draft → Reading σ)} (hf : f ∈ fields) : fields.lookup f.1 = some f.2 := by
  induction fields with
  | nil => cases hf
  | cons g fields ih =>
      obtain ⟨key, set⟩ := g
      rw [List.map_cons, List.nodup_cons] at hkeys
      rcases List.mem_cons.1 hf with rfl | hf
      · exact List.lookup_cons_self
      · have hne : (f.1 == key) = false := by
          rw [beq_eq_false_iff_ne]
          exact fun h => hkeys.1 (List.mem_map.2 ⟨f, hf, h⟩)
        rw [List.lookup_cons, hne]
        exact ih hkeys.2 hf

/-- What a member of an object does to a record, and the keys seen so far. -/
def setField (fields : Fields σ) (state : σ × List String) (key : String) (d : Draft) :
    Reading (σ × List String) := do
  match fields.lookup key with
  | none => return state
  | some set =>
    if state.2.contains key then throw .mismatch
    return (← set state.1 d, key :: state.2)

theorem readRecord_object (fields : Fields σ) (start : σ)
    (members : List (Option String × Draft)) (closed : Bool) :
    readRecord fields start (.object members closed) =
      Prod.fst <$> foldMembers (setField fields) (start, []) members closed := by
  rw [map_eq_pure_bind]
  rfl

theorem setField_eq {fields : Fields σ} {f : String × (σ → Draft → Reading σ)}
    (hf : fields.lookup f.1 = some f.2) {seen : List String} (hnew : f.1 ∉ seen) (record : σ)
    (d : Draft) : setField fields (record, seen) f.1 d = (·, f.1 :: seen) <$> f.2 record d := by
  have hcontains : seen.contains f.1 = false := by simpa using hnew
  rw [setField, hf, map_eq_pure_bind]
  simp only [hcontains, Bool.false_eq_true, if_false]

/-- An object that has the fields of a record in their order is read like the row
of their values. -/
theorem readRecord_inOrder (fields : Fields σ) (hkeys : (fields.map (·.1)).Nodup) (start : σ)
    (values : List Draft) (hlength : values.length = fields.length) :
    readRecord fields start (.object (fields.zipWith (fun f d => (some f.1, d)) values) true) =
      readRow fields start values true := by
  -- The fields that are still to come, none of which has been seen.
  have hrest : ∀ (rest : Fields σ) (values : List Draft) (record : σ) (seen : List String),
      (∀ f ∈ rest, fields.lookup f.1 = some f.2 ∧ f.1 ∉ seen) → (rest.map (·.1)).Nodup →
      values.length = rest.length →
      Prod.fst <$> foldMembers (setField fields) (record, seen)
        (rest.zipWith (fun f d => (some f.1, d)) values) true = readRow rest record values true := by
    intro rest
    induction rest with
    | nil =>
        intro values record seen _ _ hlength
        obtain rfl := List.length_eq_zero_iff.1 hlength
        rfl
    | cons f rest ih =>
        intro values record seen hnew hkeys hlength
        cases values with
        | nil => cases hlength
        | cons d values =>
            obtain ⟨⟨hf, hseen⟩, hnew⟩ := List.forall_mem_cons.1 hnew
            rw [List.map_cons, List.nodup_cons] at hkeys
            have hnew' : ∀ g ∈ rest, fields.lookup g.1 = some g.2 ∧ g.1 ∉ f.1 :: seen := by
              intro g hg
              refine ⟨(hnew g hg).1, List.not_mem_cons_of_ne_of_not_mem (fun h => ?_) (hnew g hg).2⟩
              exact hkeys.1 (List.mem_map.2 ⟨g, hg, h⟩)
            rw [foldMembers, List.zipWith_cons_cons, List.foldlM_cons, readRow]
            simp only [setField_eq hf hseen]
            cases f.2 record d with
            | error e => rfl
            | ok record =>
                exact ih values record (f.1 :: seen) hnew' hkeys.2 (by simpa using hlength)
  rw [readRecord_object]
  exact hrest fields values start [] (fun f hf => ⟨lookup_of_mem hkeys hf, by simp⟩) hkeys hlength

end Draft

/-! ## Rules -/

theorem Rule.integral_toJson (r : Rule) : r.toJson.Integral := by
  refine .object ?_
  simp only [List.forall_mem_cons]
  exact ⟨.number _, .text _, r.root.integral_toJson, fun _ h => by cases h⟩

theorem Rule.read_ofJson (r : Rule) : read (.ofJson r.toJson) =
    if r.root.depth ≤ 126 then .ok r else .error .malformed := by
  have hid : Draft.readInt64 (.ofJson (.ofInt64 r.id)) = .ok r.id := by
    rw [Json.ofInt64, Json.ofInt, Draft.ofJson, Draft.readInt64, Json.toInt64?_ofInt64]
  have hroot := Tree.readOption_ofJson r.root (nestingLimit - 1)
  have hrecord : Draft.readRecord (fields (nestingLimit - 1)) ⟨none, none, none⟩
      (.ofJson r.toJson) = Draft.readRow (fields (nestingLimit - 1)) ⟨none, none, none⟩
        [.ofJson (.ofInt64 r.id), .text (some r.text), .ofJson r.root.toJson] true :=
    Draft.readRecord_inOrder (fields (nestingLimit - 1))
      (by decide : ["id", "ruleString", "rootNode"].Nodup) _
      [.ofJson (.ofInt64 r.id), .text (some r.text), .ofJson r.root.toJson] rfl
  rw [read, hrecord]
  simp only [fields, Draft.readRow, hid, hroot]
  by_cases h : r.root.depth ≤ 126
  · have hpresent : (if r.root.isEmpty = true then none else some r.root).getD .empty = r.root := by
      cases r.root <;> rfl
    rw [nestingLimit, if_pos h, if_pos h]
    exact congrArg (fun root => (Except.ok ⟨r.id, r.text, root⟩ : Reading Rule)) hpresent
  · rw [nestingLimit, if_neg h, if_neg h]
    rfl

/-! ## Groups -/

theorem Group.integral_toJson (g : Group) : g.toJson.Integral := by
  have hchildren : ∀ j ∈ g.children.map Tree.toJson, j.Integral := by
    intro j hj
    obtain ⟨t, -, rfl⟩ := List.mem_map.1 hj
    exact t.integral_toJson
  refine .object ?_
  simp only [List.forall_mem_cons]
  exact ⟨.text _, .array hchildren, fun _ h => by cases h⟩

theorem Connective.read_ofJson (c : Connective) (limit : Nat) :
    read limit (.ofJson c.toJson) = .ok c := by
  have hread : Draft.readAny limit (.ofJson c.toJson) = .ok c.toJson := by
    rw [toJson, Draft.readAny_ofJson (.text _), if_pos]
    exact Nat.zero_le limit
  rw [read, hread]
  cases c <;> rfl

theorem Tree.mapM_read {trees : List Tree} (h : ∀ t ∈ trees, t ≠ empty) (limit : Nat) :
    (Draft.ofItems (trees.map toJson)).mapM (read limit) =
      if ∀ t ∈ trees, t.depth ≤ limit then .ok trees else .error .malformed := by
  induction trees with
  | nil => rfl
  | cons t trees ih =>
      obtain ⟨ht, htrees⟩ := List.forall_mem_cons.1 h
      rw [List.map_cons, Draft.ofItems, List.mapM_cons, read_ofJson ht, ih htrees]
      simp only [List.forall_mem_cons]
      by_cases hfirst : t.depth ≤ limit <;> by_cases hrest : ∀ t ∈ trees, t.depth ≤ limit
      · rw [if_pos hfirst, if_pos hrest, if_pos ⟨hfirst, hrest⟩]
        rfl
      · rw [if_pos hfirst, if_neg hrest, if_neg (not_and_of_not_right _ hrest)]
        rfl
      · rw [if_neg hfirst, if_neg (not_and_of_not_left _ hfirst)]
        rfl
      · rw [if_neg hfirst, if_neg (not_and_of_not_left _ hfirst)]
        rfl

theorem Group.read_ofJson {g : Group} (h : ∀ t ∈ g.children, t ≠ .empty) :
    read (.ofJson g.toJson) =
      if ∀ t ∈ g.children, t.depth ≤ 125 then .ok g else .error .malformed := by
  have hrecord : Draft.readRecord (fields (nestingLimit - 1)) ⟨none, none⟩
      (.ofJson g.toJson) = Draft.readRow (fields (nestingLimit - 1)) ⟨none, none⟩
        [.ofJson g.connective.toJson, .array (Draft.ofItems (g.children.map Tree.toJson)) true]
        true :=
    Draft.readRecord_inOrder (fields (nestingLimit - 1))
      (by decide : ["operator", "children"].Nodup) _
      [.ofJson g.connective.toJson, .array (Draft.ofItems (g.children.map Tree.toJson)) true] rfl
  rw [read, hrecord]
  simp only [fields, Draft.readRow, Connective.read_ofJson, Draft.readItems, Tree.mapM_read h]
  by_cases hdepth : ∀ t ∈ g.children, t.depth ≤ 125
  · rw [nestingLimit, if_pos hdepth, if_pos hdepth]
    rfl
  · rw [nestingLimit, if_neg hdepth, if_neg hdepth]
    rfl

/-! ## Rules of any depth that a service accepts -/

namespace Tree

theorem expressible_orChain {ts : List Tree} (h : ∀ t ∈ ts, Expressible t) (hne : ts ≠ []) :
    Expressible (orChain ts) := by
  induction ts using orChain.induct with
  | case1 => exact absurd rfl hne
  | case2 t => exact h t List.mem_cons_self
  | case3 t rest hrest ih =>
      obtain ⟨ht, h⟩ := List.forall_mem_cons.1 h
      rw [orChain]
      · exact .branch ht (ih h hrest)
      · exact hrest

/-- A chain of one short condition, `n + 1` times. -/
def shortChain (n : Nat) : Tree :=
  orChain (List.replicate (n + 1) (ofCondition (conditionText "a" .lt "b")))

theorem shortChain_succ (n : Nat) :
    shortChain (n + 1) = branch .or (ofCondition (conditionText "a" .lt "b")) (shortChain n) := by
  rw [shortChain, List.replicate_succ, orChain]
  · rfl
  · exact List.cons_ne_nil _ _

theorem expressible_shortChain (n : Nat) : Expressible (shortChain n) := by
  refine expressible_orChain (fun t ht => ?_) (List.cons_ne_nil _ _)
  rw [List.eq_of_mem_replicate ht]
  exact .leaf (isPlainWord_iff.1 (by decide)) (isPlainWord_iff.1 (by decide)) (by decide)
    (by decide)

theorem height_shortChain (n : Nat) : (shortChain n).height = n + 1 := by
  induction n with
  | zero => rfl
  | succ n ih =>
      rw [shortChain_succ, height, ih, ofCondition, height]
      omega

theorem length_chars_shortChain (n : Nat) : (shortChain n).chars.length = 9 * n + 5 := by
  have hleaf : (ofCondition (conditionText "a" .lt "b")).chars.length = 5 := by decide
  have hdelimiter : (Connective.delimiter .or).length = 4 := by decide
  induction n with
  | zero => exact hleaf
  | succ n ih =>
      rw [shortChain_succ, chars, List.length_append, List.length_append, hdelimiter, ih]
      show (ofCondition (conditionText "a" .lt "b")).chars.length + 4 + _ = _
      omega

end Tree

theorem Service.read_render {σ : Type} {svc : Service σ} {t : Tree} (h : Expressible t)
    (hdepth : t.depth ≤ maxDepth) : svc.read t.render = .ok t := by
  have hparse : svc.mode.parse t.render = .ok t := by
    cases svc.mode with
    | lenient => rw [Mode.parse, parse_eq h]
    | strict => rw [Mode.parse, fault?_eq_none h, parse_eq h]
  rw [read, hparse]
  exact if_neg (Nat.not_lt.2 hdepth)

/-! ## Reading back -/

/-- Reads the JSON text of a node. -/
def Tree.decode (text : String) : Reading Tree :=
  (Document.ofText text).read (read nestingLimit)

def Rule.decode (text : String) : Reading Rule :=
  (Document.ofText text).read read

def Group.decode (text : String) : Reading Group :=
  (Document.ofText text).read read

theorem Document.read_render {α : Type} {readValue : Draft → Reading α} {j : Json}
    (h : j.Integral) : (Document.ofText j.render).read readValue = readValue (.ofJson j) := by
  rw [Document.ofText_render h, Document.read]
  cases readValue (.ofJson j) <;> rfl

theorem Tree.decode_render {t : Tree} (ht : t ≠ empty) : decode t.toJson.render =
    if t.depth ≤ 127 then .ok t else .error .malformed := by
  rw [decode, Document.read_render t.integral_toJson, read_ofJson ht, nestingLimit]

theorem Rule.decode_render (r : Rule) : decode r.toJson.render =
    if r.root.depth ≤ 126 then .ok r else .error .malformed := by
  rw [decode, Document.read_render r.integral_toJson, read_ofJson]

theorem Group.decode_render {g : Group} (h : ∀ t ∈ g.children, t ≠ .empty) :
    decode g.toJson.render =
      if ∀ t ∈ g.children, t.depth ≤ 125 then .ok g else .error .malformed := by
  rw [decode, Document.read_render g.integral_toJson, read_ofJson h]

/-- What is written of trees, rules and groups as JSON text is read back just if it
nests no deeper than 127 arrays and objects, which leaves 127 levels to a tree, 126
to the tree of a rule and 125 to those of a group. So a client reads a rule from the
response that shows it just if its tree has no more than 126 levels, and a service
accepts rules of more, up to 512. -/
theorem decode_render_iff_shallow (mode : Mode) :
    let svc : Service Store := ⟨.memory, mode⟩
    (∀ t, t ≠ Tree.empty → Tree.decode t.toJson.render =
      if t.depth ≤ 127 then .ok t else .error .malformed) ∧
    (∀ r, Rule.decode r.toJson.render =
      if r.root.depth ≤ 126 then .ok r else .error .malformed) ∧
    (∀ g : Group, (∀ t ∈ g.children, t ≠ .empty) → Group.decode g.toJson.render =
      if ∀ t ∈ g.children, t.depth ≤ 125 then .ok g else .error .malformed) ∧
    (∀ fresh request s, (Api.Exchange.mk request (Api.handle svc fresh request s).1).adds = true →
      ∃ r ∈ (Api.handle svc fresh request s).2.storage.rules,
        Rule.decode (Api.handle svc fresh request s).1.body =
          if r.root.depth ≤ 126 then .ok r else .error .malformed) ∧
    ∀ s depth, 1 ≤ depth → depth ≤ 512 → ∃ text r, (svc.create text s).1 = .ok r ∧
      r.root.depth = depth ∧ (depth ≤ 455 → Api.Admitted (.create text)) ∧
      Rule.decode r.toJson.render = if depth ≤ 126 then .ok r else .error .malformed := by
  intro svc
  have hmemory : svc.repository = Repository.memory := rfl
  refine ⟨fun t ht => Tree.decode_render ht, Rule.decode_render, fun g h => Group.decode_render h,
    fun fresh request s hadds => ?_, fun s depth hpos hdepth => ?_⟩
  · obtain ⟨new, hnew, htells⟩ := Api.handle_tells hmemory fresh request s
    obtain ⟨r, rfl, hbody⟩ := htells.eq_created hadds
    obtain ⟨text, root, hr, hstore⟩ := hnew.eq_create
    refine ⟨r, ?_, ?_⟩
    · rw [hstore, hr]
      exact Store.mem_place_self _ _
    · rw [← Rule.decode_render, ← hbody]
  · obtain ⟨n, rfl⟩ : ∃ n, depth = n + 1 := ⟨depth - 1, by omega⟩
    have hlevels : (Tree.shortChain n).depth = n + 1 := by
      rw [Tree.depth_eq_height, Tree.height_shortChain]
    have hread : svc.read (Tree.shortChain n).render = .ok (Tree.shortChain n) :=
      Service.read_render (Tree.expressible_shortChain n) (hlevels ▸ hdepth)
    obtain ⟨metrics, heq⟩ := Service.create_of_read (s := s) hmemory hread
    refine ⟨(Tree.shortChain n).render, _, congrArg Prod.fst heq, hlevels, fun hfew => ?_, ?_⟩
    · show (Tree.shortChain n).render.length ≤ Api.maxTextLength
      rw [Tree.render, String.length_ofList, Tree.length_chars_shortChain, Api.maxTextLength]
      omega
    · rw [Rule.decode_render, ← hlevels]
      rfl

/-- A tree in whose texts every kind of escape stands, below a branch without a right
child. -/
theorem decode_render_iff_shallow_escapes :
    let c : Condition := ⟨"a\"b\\c\n\x01\x1f/é😀", none, some "=", some "\x7f\t"⟩
    let t : Tree := .branch .and (.leaf c) .empty
    Tree.decode t.toJson.render = .ok t ∧
      Rule.decode (Rule.toJson ⟨-9223372036854775808, "", t⟩).render =
        .ok ⟨-9223372036854775808, "", t⟩ ∧
      Group.decode (Group.toJson ⟨.or, [t, t]⟩).render = .ok ⟨.or, [t, t]⟩ := by
  intro c t
  have hne : t ≠ .empty := by decide
  have hdepth : t.depth = 2 := by rw [Tree.depth_eq_height]; rfl
  obtain ⟨htree, hrule, hgroup, -⟩ := decode_render_iff_shallow .lenient
  refine ⟨?_, ?_, ?_⟩
  · rw [htree t hne, if_pos (by omega)]
  · rw [hrule, if_pos (by rw [hdepth]; decide)]
  · rw [hgroup ⟨.or, [t, t]⟩ (by simp [hne]), if_pos (by simp [hdepth])]

end Criteria
