import Criteria.Proofs.Accepting
import Criteria.Proofs.Deciding
import Criteria.Proofs.Serving

/-!
# One combined rule or many separate ones

The texts of some rules can be kept as one rule, whose tree is a chain of `or`
branches, or each as a rule of its own, which are then searched for the first
match. Both ways accept the same texts, because a text is read by itself in
either case, and both find a match for the same contexts.

The rules that are kept separately are compared as a multiset. Their order is
that of their numbers, which run round after 64 bits; only that no two rules
have the same number matters (`Store.Numbered`), and so a list may be as long as
its length can be written in 64 bits.
-/

namespace Criteria

/-! ## Chains and lists of rules -/

theorem Tree.meaning_orChain (ctx : Context) (ts : List Tree) :
    (orChain ts).meaning ctx = ts.any (·.meaning ctx) := by
  induction ts using orChain.induct with
  | case1 => rfl
  | case2 t => rw [orChain, List.any_cons, List.any_nil, Bool.or_false]
  | case3 t rest hne ih =>
      rw [orChain, meaning, ih, List.any_cons]
      · rfl
      · exact hne

theorem Rule.anyMatch_eq (rules : List Rule) (ctx : Context) :
    anyMatch rules ctx = rules.any (·.root.meaning ctx) := by
  have hfrom : ∀ seen,
      (firstMatchFrom ctx seen rules).isMatch = rules.any (·.root.meaning ctx) := by
    induction rules with
    | nil => exact fun _ => rfl
    | cons r rest ih =>
        intro seen
        rw [firstMatchFrom, List.any_cons, ← r.evaluate_eq]
        cases r.evaluate ctx with
        | true => rfl
        | false => exact ih (seen + 1)
  exact hfrom 0

theorem Tree.any_meaning_present (ctx : Context) (ts : List Tree) :
    (ts.filter (!·.isEmpty)).any (·.meaning ctx) = ts.any (·.meaning ctx) := by
  rw [List.any_filter]
  congr 1
  funext t
  cases t <;> rfl

/-- Some rules match if the chain of the trees that they have does. -/
theorem Rule.anyMatch_eq_orChain (rules : List Rule) (ctx : Context) :
    anyMatch rules ctx =
      (Tree.orChain ((rules.map (·.root)).filter (!·.isEmpty))).evaluate ctx := by
  rw [anyMatch_eq, Tree.evaluate_eq, Tree.meaning_orChain, Tree.any_meaning_present, List.any_map]
  rfl

theorem Rule.anyMatch_congr {rules rules' : List Rule} (h : ∀ r, r ∈ rules ↔ r ∈ rules')
    (ctx : Context) : anyMatch rules ctx = anyMatch rules' ctx := by
  rw [anyMatch_eq, anyMatch_eq, Bool.eq_iff_iff, List.any_eq_true, List.any_eq_true]
  exact exists_congr fun r => and_congr_left' (h r)

/-! ## Reading several texts -/

theorem Mode.parse_ok {mode : Mode} {text : String} {root : Tree} (h : mode.parse text = .ok root) :
    root = Tree.parse text := by
  cases mode with
  | lenient =>
      cases h
      rfl
  | strict => exact (strict_parse_ok_iff.1 h).1

namespace Service

variable {σ : Type}

theorem read_ok {svc : Service σ} {text : String} {root : Tree} (h : svc.read text = .ok root) :
    root = Tree.parse text := by
  rw [read] at h
  split at h
  · cases h
  · next root' hroot =>
      split at h
      · cases h
      · cases h
        exact Mode.parse_ok hroot

/-- Reading depends on the mode alone. -/
theorem read_congr {τ : Type} {svc : Service σ} {svc' : Service τ} (h : svc'.mode = svc.mode)
    (text : String) : svc'.read text = svc.read text := by
  rw [read, read, h]

theorem readAll_congr {τ : Type} {svc : Service σ} {svc' : Service τ} (h : svc'.mode = svc.mode)
    (texts : List String) : svc'.readAll texts = svc.readAll texts := by
  induction texts with
  | nil => rfl
  | cons text rest ih => rw [readAll, readAll, read_congr h, ih]

/-- Some texts are read if each of them is. -/
theorem readAll_ok_iff {svc : Service σ} {texts : List String} {roots : List Tree} :
    svc.readAll texts = .ok roots ↔
      (∀ text ∈ texts, ∃ root, svc.read text = .ok root) ∧ roots = texts.map Tree.parse := by
  induction texts generalizing roots with
  | nil =>
      rw [readAll]
      constructor
      · exact fun h => ⟨fun _ h => (List.not_mem_nil h).elim, (Except.ok.inj h).symm⟩
      · exact fun h => congrArg Except.ok h.2.symm
  | cons text rest ih =>
      rw [readAll, List.forall_mem_cons]
      cases hread : svc.read text with
      | error f =>
          constructor
          · intro h
            cases h
          · rintro ⟨⟨⟨_, h⟩, -⟩, -⟩
            cases h
      | ok root =>
          obtain rfl := read_ok hread
          cases hall : svc.readAll rest with
          | error f =>
              constructor
              · intro h
                cases h
              · rintro ⟨⟨-, hrest⟩, -⟩
                have := hall.symm.trans (ih.2 ⟨hrest, rfl⟩)
                cases this
          | ok roots' =>
              obtain ⟨hrest, rfl⟩ := ih.1 hall
              constructor
              · intro h
                cases h
                exact ⟨⟨⟨_, rfl⟩, hrest⟩, rfl⟩
              · rintro ⟨-, rfl⟩
                rfl

/-- Creates a rule of each text, one after the other. -/
def createEach (svc : Service σ) :
    List String → ServiceState σ → List (Except Failure Rule) × ServiceState σ
  | [], s => ([], s)
  | text :: rest, s =>
    let (answer, s) := svc.create text s
    let (answers, s) := svc.createEach rest s
    (answer :: answers, s)

end Service

/-! ## A service in memory -/

/-- A store that has handed out `n` numbers so far. -/
structure Store.Numbered (s : Store) (n : Nat) : Prop where
  next : s.nextId = 1 + Int64.ofNat n
  ids : ∀ r ∈ s.rules, ∃ i < n, r.id = 1 + Int64.ofNat i

theorem ofNat_ne {i n : Nat} (hi : i < n) (hn : n < UInt64.size) :
    (1 : Int64) + Int64.ofNat i ≠ 1 + Int64.ofNat n := by
  intro h
  have hbits := congrArg Int64.toBitVec (Int64.add_right_inj 1 |>.1 h)
  have hnat := congrArg BitVec.toNat hbits
  simp only [Int64.toBitVec_ofNat', BitVec.toNat_ofNat] at hnat
  rw [UInt64.size] at hn
  omega

theorem Store.Numbered.create {s : Store} {n : Nat} (h : s.Numbered n) (hn : n < UInt64.size)
    (text : String) (root : Tree) :
    (s.create text root).2.Numbered (n + 1) ∧
      (s.create text root).2.rules.Perm (⟨s.nextId, text, root⟩ :: s.rules) := by
  have hperm : (s.create text root).2.rules.Perm (⟨s.nextId, text, root⟩ :: s.rules) := by
    refine place_perm fun x hx => ?_
    obtain ⟨i, hi, hid⟩ := h.ids x hx
    rw [hid]
    show _ ≠ s.nextId
    rw [h.next]
    exact ofNat_ne hi hn
  refine ⟨⟨?_, fun r hr => ?_⟩, hperm⟩
  · show s.nextId + 1 = _
    rw [h.next, Int64.ofNat_add, ← Int64.add_assoc]
    rfl
  · rcases List.mem_cons.1 (hperm.mem_iff.1 hr) with rfl | hr
    · exact ⟨n, Nat.lt_succ_self n, h.next⟩
    · obtain ⟨i, hi, hid⟩ := h.ids r hr
      exact ⟨i, Nat.lt_succ_of_lt hi, hid⟩

namespace Service

variable {svc : Service Store} {s : ServiceState Store}

theorem create_of_read (hmemory : svc.repository = Repository.memory) {text : String} {root : Tree}
    (h : svc.read text = .ok root) : ∃ metrics, svc.create text s =
      (.ok (s.storage.create text root).1, ⟨(s.storage.create text root).2, metrics⟩) := by
  rw [create, h]
  exact keep_eq hmemory .create text root s

theorem create_ok_iff (hmemory : svc.repository = Repository.memory) (text : String) :
    (∃ r, (svc.create text s).1 = .ok r) ↔ ∃ root, svc.read text = .ok root := by
  cases h : svc.read text with
  | error f =>
      rw [create, h]
      constructor
      · rintro ⟨_, hok⟩
        cases hok
      · rintro ⟨_, hok⟩
        cases hok
  | ok root =>
      obtain ⟨metrics, heq⟩ := create_of_read (s := s) hmemory h
      rw [heq]
      exact ⟨fun _ => ⟨_, rfl⟩, fun _ => ⟨_, rfl⟩⟩

theorem combine_of_readAll (hmemory : svc.repository = Repository.memory) {texts : List String}
    {roots : List Tree} (h : svc.readAll texts = .ok roots) : ∃ metrics, svc.combine texts s =
      (.ok (s.storage.create (Rule.joinTexts texts) (Tree.orChain roots)).1,
        ⟨(s.storage.create (Rule.joinTexts texts) (Tree.orChain roots)).2, metrics⟩) := by
  rw [combine, h]
  exact keep_eq hmemory .combine (Rule.joinTexts texts) (Tree.orChain roots) s

theorem combine_ok_iff (hmemory : svc.repository = Repository.memory) (texts : List String) :
    (∃ r, (svc.combine texts s).1 = .ok r) ↔ ∀ text ∈ texts, ∃ root, svc.read text = .ok root := by
  cases h : svc.readAll texts with
  | error f =>
      rw [combine, h]
      constructor
      · rintro ⟨_, hok⟩
        cases hok
      · intro hread
        have := h.symm.trans (readAll_ok_iff.2 ⟨hread, rfl⟩)
        cases this
  | ok roots =>
      obtain ⟨metrics, heq⟩ := combine_of_readAll (s := s) hmemory h
      rw [heq]
      exact ⟨fun _ => (readAll_ok_iff.1 h).1, fun _ => ⟨_, rfl⟩⟩

theorem createEach_ok_iff (hmemory : svc.repository = Repository.memory) (texts : List String) :
    (∀ a ∈ (svc.createEach texts s).1, ∃ r, a = .ok r) ↔
      ∀ text ∈ texts, ∃ root, svc.read text = .ok root := by
  induction texts generalizing s with
  | nil => exact ⟨fun _ _ h => (List.not_mem_nil h).elim, fun _ _ h => (List.not_mem_nil h).elim⟩
  | cons text rest ih =>
      rw [createEach, List.forall_mem_cons, List.forall_mem_cons]
      exact and_congr (create_ok_iff hmemory text) ih

/-- What is kept after the texts have become rules of their own. -/
theorem any_createEach (hmemory : svc.repository = Repository.memory) (ctx : Context)
    {texts : List String} (hread : ∀ text ∈ texts, ∃ root, svc.read text = .ok root) {n : Nat}
    (h : s.storage.Numbered n) (hn : n + texts.length ≤ UInt64.size) :
    (svc.createEach texts s).2.storage.rules.any (·.root.meaning ctx) =
      (s.storage.rules.any (·.root.meaning ctx) ||
        texts.any fun text => (Tree.parse text).meaning ctx) := by
  induction texts generalizing s n with
  | nil => exact (Bool.or_false _).symm
  | cons text rest ih =>
      obtain ⟨⟨root, hroot⟩, hrest⟩ := List.forall_mem_cons.1 hread
      rw [List.length_cons] at hn
      obtain ⟨metrics, heq⟩ := create_of_read (s := s) hmemory hroot
      obtain ⟨hnumbered, hperm⟩ := h.create (by omega) text root
      rw [createEach, heq]
      refine (ih hrest hnumbered (by omega)).trans ?_
      rw [hperm.any_eq, List.any_cons, List.any_cons, read_ok hroot, ← Bool.or_assoc,
        Bool.or_comm (Tree.meaning _ _)]

theorem evaluate_eq_anyMatch (hmemory : svc.repository = Repository.memory) (ctx : Context) :
    ∃ o, (svc.evaluate ctx s).1 = .ok o ∧ o.isMatch = Rule.anyMatch s.storage.rules ctx := by
  obtain ⟨metrics, heq⟩ := evaluate_eq hmemory ctx s
  rw [heq]
  exact ⟨_, rfl, rfl⟩

end Service

/-- Keeping the rules of some texts as one rule is accepted if keeping them
separately is, and what is kept then matches the same contexts, those that one of
the texts matches. The length of a list has 64 bits, like the numbers of rules.
For rules in general, a list matches what the chain of its trees matches, however
often and in which order they come. -/
theorem evaluate_createEach_combine (mode : Mode) (texts : List String) (metrics : Metrics) :
    let svc : Service Store := ⟨.memory, mode⟩
    let s : ServiceState Store := ⟨.empty, metrics⟩
    ((∀ a ∈ (svc.createEach texts s).1, ∃ r, a = .ok r) ↔ ∃ r, (svc.combine texts s).1 = .ok r) ∧
    ((∃ r, (svc.combine texts s).1 = .ok r) →
      ∀ text ∈ texts, ∀ s', ∃ r, (svc.create text s').1 = .ok r) ∧
    ((∃ r, (svc.combine texts s).1 = .ok r) → texts.length ≤ UInt64.size → ∀ ctx, ∃ o o',
      (svc.evaluate ctx (svc.createEach texts s).2).1 = .ok o ∧
        (svc.evaluate ctx (svc.combine texts s).2).1 = .ok o' ∧ o.isMatch = o'.isMatch ∧
        o.isMatch = texts.any fun text => (Tree.parse text).evaluate ctx) ∧
    (∀ (rules : List Rule) ctx, Rule.anyMatch rules ctx =
      (Tree.orChain ((rules.map (·.root)).filter (!·.isEmpty))).evaluate ctx) ∧
    ∀ (rules rules' : List Rule) ctx, (∀ r, r ∈ rules ↔ r ∈ rules') →
      Rule.anyMatch rules ctx = Rule.anyMatch rules' ctx := by
  intro svc s
  have hmemory : svc.repository = Repository.memory := rfl
  have hcombine := Service.combine_ok_iff (s := s) hmemory texts
  refine ⟨?_, fun haccepted text htext s' => ?_, fun haccepted hlength ctx => ?_,
    Rule.anyMatch_eq_orChain, fun rules rules' ctx h => Rule.anyMatch_congr h ctx⟩
  · rw [hcombine, Service.createEach_ok_iff hmemory]
  · exact (Service.create_ok_iff hmemory text).2 (hcombine.1 haccepted text htext)
  · have hread := hcombine.1 haccepted
    have hempty : s.storage.Numbered 0 := ⟨rfl, fun r hr => (List.not_mem_nil hr).elim⟩
    obtain ⟨o, ho, hmatch⟩ :=
      Service.evaluate_eq_anyMatch (s := (svc.createEach texts s).2) hmemory ctx
    obtain ⟨o', ho', hmatch'⟩ :=
      Service.evaluate_eq_anyMatch (s := (svc.combine texts s).2) hmemory ctx
    obtain ⟨m, hcombined⟩ := Service.combine_of_readAll (s := s) hmemory
      (Service.readAll_ok_iff.2 ⟨hread, rfl⟩)
    have hseparate : o.isMatch = texts.any fun text => (Tree.parse text).evaluate ctx := by
      rw [hmatch, Rule.anyMatch_eq, Service.any_createEach hmemory ctx hread hempty (by omega)]
      simp only [Tree.evaluate_eq]
      rfl
    refine ⟨o, o', ho, ho', ?_, hseparate⟩
    rw [hseparate, hmatch', Rule.anyMatch_eq, hcombined]
    show _ = ([_].any fun r : Rule => r.root.meaning ctx)
    rw [List.any_cons, List.any_nil, Bool.or_false]
    show _ = (Tree.orChain _).meaning ctx
    rw [Tree.meaning_orChain, List.any_map]
    simp only [Tree.evaluate_eq]
    rfl

/-- Two texts in strict mode. -/
theorem evaluate_createEach_combine_two_texts :
    let svc : Service Store := ⟨.memory, .strict⟩
    let s : ServiceState Store := ⟨.empty, .empty⟩
    let texts := ["age > 30 AND salary > 100", "department = 'HR'"]
    let ctx := Context.empty.insert "department" (.text "hr")
    ∃ o o', (svc.evaluate ctx (svc.createEach texts s).2).1 = .ok o ∧
      (svc.evaluate ctx (svc.combine texts s).2).1 = .ok o' ∧
        o.isMatch = true ∧ o'.isMatch = true := by
  intro svc s texts ctx
  obtain ⟨haccept, -, hmatch, -⟩ := evaluate_createEach_combine .strict texts .empty
  have hall : ∀ a ∈ (svc.createEach texts s).1, ∃ r, a = .ok r := by
    have hanswers : (svc.createEach texts s).1.all (·.isOk) = true := by decide +kernel
    intro a ha
    have hok := List.all_eq_true.1 hanswers a ha
    cases a with
    | error f => cases hok
    | ok r => exact ⟨r, rfl⟩
  obtain ⟨o, o', ho, ho', heq, hany⟩ := hmatch (haccept.1 hall) (by decide) ctx
  have htrue : o.isMatch = true := hany.trans (by decide +kernel)
  exact ⟨o, o', ho, ho', htrue, heq ▸ htrue⟩

end Criteria
