import Mathlib.Data.List.Perm.Basic
import Mathlib.Data.Multiset.Defs
import VisaService.Eval.Join

/-!
# The documented meaning of join policies

`JPolicy.matches` is two nested loops with early returns. `AttrExp.Means` is what the comment of
the function says about one expression: `HAS`, `EXCLUDES`, `EQ` and `NE`, and the blank value
that asks whether the key is there at all. Tallies of values are compared by `EQ` and `NE`, so
that these are about multisets.

Main result: `matches_documented`.
-/
namespace VisaService

open Lib

/-- No value, or the empty string for it. -/
def AttrExp.Blank (exp : AttrExp) : Prop := exp.value = [] ∨ exp.value = [""]

/-- The only empty string is that of a blank value. -/
def AttrExp.Plain (exp : AttrExp) : Prop := "" ∈ exp.value → exp.value = [""]

/-- The meaning of an expression, expiry apart. -/
def AttrExp.Means (exp : AttrExp) (attrs : List Attribute) : Prop :=
  match exp.op with
  | .has => ∃ attr ∈ attrs, attr.key = exp.key ∧
      (exp.Blank ∨ ∀ value ∈ exp.value, value ∈ attr.value)
  | .excludes =>
    (exp.Blank ∧ ∀ attr ∈ attrs, attr.key ≠ exp.key) ∨
      ¬ exp.Blank ∧ ∃ attr ∈ attrs, attr.key = exp.key ∧ ∀ value ∈ exp.value, value ∉ attr.value
  | .eq => ∃ attr ∈ attrs, attr.key = exp.key ∧ (attr.value : Multiset String) = exp.value
  | .ne => ∃ attr ∈ attrs, attr.key = exp.key ∧ (attr.value : Multiset String) ≠ exp.value

/-- The same expression with its values in another order. -/
def AttrExp.Reorders (exp other : AttrExp) : Prop :=
  other = { exp with value := other.value } ∧ exp.value.Perm other.value

/-- The same attribute with its values in another order. -/
def Attribute.Reorders (attr other : Attribute) : Prop :=
  other = { attr with value := other.value } ∧ attr.value.Perm other.value

/-- The same key and values, and what had expired still has. -/
structure Attribute.Ages (now later : Nat) (attr aged : Attribute) : Prop where
  key : aged.key = attr.key
  value : aged.value = attr.value
  expired : attr.isExpired now = true → aged.isExpired later = true

/-! ### Values -/

theorem tally_getElem (values : List String) (value : String) :
    (tally values)[value]? = if values.count value = 0 then none else some (values.count value) := by
  -- The counts so far are those of the values that the loop has passed.
  induction values using List.reverseRecOn with
  | nil => simp [tally]
  | append_singleton passed last ih =>
    rw [tally, List.foldl_append, ← tally, List.foldl_cons, List.foldl_nil,
      HashMap.get_alter, List.count_append, List.count_singleton]
    by_cases same : last = value
    · subst same
      rw [if_pos rfl, ih]
      split
      next none => simp [none]
      · simp
    · rw [if_neg same, ih]
      simp [same]

theorem tally_eq_iff {values others : List String} :
    tally values = tally others ↔ values.Perm others := by
  rw [List.perm_iff_count]
  constructor
  · intro same value
    have counts : (tally values)[value]? = (tally others)[value]? := by rw [same]
    rw [tally_getElem, tally_getElem] at counts
    split at counts <;> split at counts <;> simp_all
  · intro same
    refine Std.ExtTreeMap.ext_getElem? fun value => ?_
    rw [tally_getElem, tally_getElem, same value]

variable {exp : AttrExp} {attrs : List Attribute} {attr : Attribute} {now : Nat} {jp : JPolicy}

theorem containsExactly_iff {values : List String} :
    containsExactly exp values = true ↔ (values : Multiset String) = exp.value := by
  simp only [containsExactly, Bool.and_eq_true, decide_eq_true_eq, tally_eq_iff,
    Multiset.coe_eq_coe]
  exact ⟨And.right, fun perm => ⟨perm.length_eq, perm⟩⟩

theorem AttrExp.Plain.isEmptyValue_iff (plain : exp.Plain) : isEmptyValue exp = true ↔ exp.Blank := by
  unfold isEmptyValue Blank
  cases isValue : exp.value with
  | nil => simp
  | cons first rest =>
    simp only [beq_iff_eq, reduceCtorEq, false_or]
    constructor
    · rintro rfl
      exact isValue ▸ plain (isValue ▸ List.mem_cons_self)
    · exact fun blank => (List.cons.inj blank).1

theorem AttrExp.Plain.admits_iff (plain : exp.Plain) (attr : Attribute) :
    exp.admits attr = true ↔
      match exp.op with
      | .has => exp.Blank ∨ ∀ value ∈ exp.value, value ∈ attr.value
      | .excludes => ¬ exp.Blank ∧ ∀ value ∈ exp.value, value ∉ attr.value
      | .eq => (attr.value : Multiset String) = exp.value
      | .ne => (attr.value : Multiset String) ≠ exp.value := by
  unfold AttrExp.admits
  cases exp.op with
  | eq => exact containsExactly_iff
  | ne => rw [Bool.not_eq_true', ne_eq, ← containsExactly_iff, Bool.not_eq_true]
  | has => simp [plain.isEmptyValue_iff, Attribute.valueHasAll, Attribute.valueHas]
  | excludes =>
    simp [← plain.isEmptyValue_iff, Attribute.valueHasAny, Attribute.valueHas]

/-! ### Expressions -/

/-- A key occurs at most once, so that some occurrence passes if and only if all do and there
is one. -/
theorem AttrExp.Plain.holds_iff (plain : exp.Plain) (distinct : (attrs.map Attribute.key).Nodup) :
    exp.Holds now attrs ↔ exp.Means attrs ∧
      ∀ attr ∈ attrs, attr.key = exp.key → attr.isExpired now = false := by
  have only {first second : Attribute} (isFirst : first ∈ attrs) (isSecond : second ∈ attrs)
      (own : first.key = exp.key) (alsoOwn : second.key = exp.key) : first = second :=
    List.inj_on_of_nodup_map distinct isFirst isSecond (own.trans alsoOwn.symm)
  have some_iff (pass : Attribute → Prop) :
      (∃ attr ∈ attrs, attr.key = exp.key ∧ pass attr) ↔
        (∃ attr ∈ attrs, attr.key = exp.key) ∧
          ∀ attr ∈ attrs, attr.key = exp.key → pass attr := by
    constructor
    · rintro ⟨attr, member, own, passes⟩
      exact ⟨⟨attr, member, own⟩, fun other isOther alsoOwn =>
        only member isOther own alsoOwn ▸ passes⟩
    · rintro ⟨⟨attr, member, own⟩, passes⟩
      exact ⟨attr, member, own, passes attr member own⟩
  have holds_iff : exp.Holds now attrs ↔
      ((∃ attr ∈ attrs, attr.key = exp.key) ∨ exp.op = .excludes ∧ exp.Blank) ∧
        (∀ attr ∈ attrs, attr.key = exp.key → exp.admits attr = true) ∧
        ∀ attr ∈ attrs, attr.key = exp.key → attr.isExpired now = false := by
    rw [← plain.isEmptyValue_iff]
    constructor
    · exact fun holds => ⟨holds.present, fun attr member own => (holds.passes attr member own).2,
        fun attr member own => (holds.passes attr member own).1⟩
    · exact fun ⟨present, admits, fresh⟩ =>
        ⟨fun attr member own => ⟨fresh attr member own, admits attr member own⟩, present⟩
  rw [holds_iff, ← and_assoc]
  refine and_congr_left fun _ => ?_
  simp only [plain.admits_iff, Means]
  cases exp.op with
  | eq | ne | has => simp [some_iff]
  | excludes =>
    by_cases blank : exp.Blank
    · simp [blank]
    · simp [blank, some_iff]

theorem JPolicy.matches_iff : jp.matches now attrs = true ↔ ∀ exp ∈ jp.exps, exp.Holds now attrs := by
  simp only [JPolicy.matches, List.all_eq_true, AttrExp.satisfied_iff]

/-! ### Order and expiry -/

section Reorders

variable {other : AttrExp} {reordered : List Attribute}

theorem AttrExp.Plain.reorders (plain : exp.Plain) (reorders : exp.Reorders other) :
    other.Plain := by
  intro empty
  have same := plain (reorders.2.mem_iff.mpr empty)
  exact List.perm_singleton.mp (same ▸ reorders.2.symm)

theorem AttrExp.Reorders.blank_iff (reorders : exp.Reorders other) : other.Blank ↔ exp.Blank := by
  simp only [Blank, ← List.perm_nil, ← List.perm_singleton]
  exact or_congr ⟨reorders.2.trans, reorders.2.symm.trans⟩
    ⟨reorders.2.trans, reorders.2.symm.trans⟩

theorem AttrExp.Plain.admits_reorders (plain : exp.Plain) (reorders : exp.Reorders other)
    {same : Attribute} (attrReorders : attr.Reorders same) :
    other.admits same = exp.admits attr := by
  have sameOp : other.op = exp.op := by rw [reorders.1]
  have values : (other.value : Multiset String) = exp.value :=
    Multiset.coe_eq_coe.mpr reorders.2.symm
  have attrValues : (same.value : Multiset String) = attr.value :=
    Multiset.coe_eq_coe.mpr attrReorders.2.symm
  rw [Bool.eq_iff_iff, (plain.reorders reorders).admits_iff, plain.admits_iff, sameOp,
    reorders.blank_iff, values, attrValues]
  simp only [← reorders.2.mem_iff, ← attrReorders.2.mem_iff]

theorem AttrExp.Plain.satisfied_reorders (plain : exp.Plain) (reorders : exp.Reorders other)
    (attrsReorder : List.Forall₂ Attribute.Reorders attrs reordered) :
    other.satisfied now reordered = exp.satisfied now attrs := by
  have sameKey : other.key = exp.key := by rw [reorders.1]
  have scans (found : Bool) : other.scan now reordered found = exp.scan now attrs found := by
    induction attrsReorder generalizing found with
    | nil => rfl
    | @cons attr same _ _ attrReorders _ ih =>
      have sameAttr : same.key = attr.key ∧ same.isExpired now = attr.isExpired now := by
        rw [attrReorders.1]
        exact ⟨rfl, rfl⟩
      unfold AttrExp.scan
      rw [ih, ih, plain.admits_reorders reorders attrReorders, sameAttr.1, sameAttr.2, sameKey]
  have sameEmpty : isEmptyValue other = isEmptyValue exp := by
    rw [Bool.eq_iff_iff, (plain.reorders reorders).isEmptyValue_iff, plain.isEmptyValue_iff,
      reorders.blank_iff]
  have sameOp : other.op = exp.op := by rw [reorders.1]
  unfold AttrExp.satisfied
  rw [scans, sameEmpty, sameOp]

theorem JPolicy.matches_reorders {exps : List AttrExp} (plain : ∀ exp ∈ jp.exps, exp.Plain)
    (reorders : List.Forall₂ AttrExp.Reorders jp.exps exps)
    (attrsReorder : List.Forall₂ Attribute.Reorders attrs reordered) :
    ({ jp with exps } : JPolicy).matches now reordered = jp.matches now attrs := by
  simp only [JPolicy.matches]
  generalize jp.exps = before at plain reorders
  induction reorders with
  | nil => rfl
  | cons first _ ih =>
    rw [List.all_cons, List.all_cons, ih fun exp member => plain exp (List.mem_cons_of_mem _ member),
      (plain _ List.mem_cons_self).satisfied_reorders first attrsReorder]

end Reorders

theorem AttrExp.scan_of_aged {later : Nat} {aged : List Attribute} {found result : Bool}
    (ages : List.Forall₂ (Attribute.Ages now later) attrs aged)
    (scanned : exp.scan later aged found = some result) : exp.scan now attrs found = some result := by
  induction ages generalizing found with
  | nil => exact scanned
  | @cons attr older _ _ first _ ih =>
    unfold AttrExp.scan at scanned ⊢
    rw [first.key] at scanned
    split
    next own =>
      rw [if_pos own] at scanned
      split at scanned
      · cases scanned
      next fresh =>
        rw [if_neg fun expired => fresh (first.expired expired),
          ← AttrExp.admits_congr first.value]
        split
        next admits => exact ih (by rwa [if_pos admits] at scanned)
        next refused => rwa [if_neg refused] at scanned
    next another => exact ih (by rwa [if_neg another] at scanned)

theorem JPolicy.matches_of_aged {later : Nat} {aged : List Attribute}
    (ages : List.Forall₂ (Attribute.Ages now later) attrs aged)
    (matched : jp.matches later aged = true) : jp.matches now attrs = true := by
  simp only [JPolicy.matches, List.all_eq_true] at matched ⊢
  intro exp member
  have satisfied := matched exp member
  unfold AttrExp.satisfied at satisfied ⊢
  cases scanned : exp.scan later aged false with
  | none => simp [scanned] at satisfied
  | some result => rwa [AttrExp.scan_of_aged ages scanned, ← scanned]

/-- A policy matches exactly when every expression holds as documented and no attribute that one
of them mentions has expired. No order matters, and expiry only takes matches away. -/
theorem matches_documented (plain : ∀ exp ∈ jp.exps, exp.Plain)
    (distinct : (attrs.map Attribute.key).Nodup) :
    (jp.matches now attrs = true ↔ (∀ exp ∈ jp.exps, exp.Means attrs) ∧
      ∀ attr ∈ attrs, jp.Mentions attr.key → attr.isExpired now = false) ∧
    (∀ shuffled, attrs.Perm shuffled → jp.matches now shuffled = jp.matches now attrs) ∧
    (∀ exps, jp.exps.Perm exps →
      ({ jp with exps } : JPolicy).matches now attrs = jp.matches now attrs) ∧
    (∀ exps reordered, List.Forall₂ AttrExp.Reorders jp.exps exps →
      List.Forall₂ Attribute.Reorders attrs reordered →
      ({ jp with exps } : JPolicy).matches now reordered = jp.matches now attrs) ∧
    ∀ later aged, List.Forall₂ (Attribute.Ages now later) attrs aged →
      jp.matches later aged = true → jp.matches now attrs = true := by
  refine ⟨?_, fun shuffled perm => ?_, fun exps perm => ?_,
    fun _ _ => JPolicy.matches_reorders plain, fun _ _ => JPolicy.matches_of_aged⟩
  · rw [JPolicy.matches_iff]
    constructor
    · intro holds
      refine ⟨fun exp member => (((plain exp member).holds_iff distinct).mp (holds exp member)).1, ?_⟩
      rintro attr isAttr ⟨exp, member, own⟩
      exact (((plain exp member).holds_iff distinct).mp (holds exp member)).2 attr isAttr own.symm
    · rintro ⟨means, fresh⟩ exp member
      exact ((plain exp member).holds_iff distinct).mpr ⟨means exp member,
        fun attr isAttr own => fresh attr isAttr ⟨exp, member, own.symm⟩⟩
  · refine JPolicy.matches_congr (fun attr member _ => ?_) fun attr member _ => ?_
    · exact ⟨attr, perm.mem_iff.mpr member, .refl now attr⟩
    · exact ⟨attr, perm.mem_iff.mp member, .refl now attr⟩
  · rw [Bool.eq_iff_iff, JPolicy.matches_iff, JPolicy.matches_iff]
    simp only [perm.mem_iff]

/-- An employee of two teams may not be a contractor. -/
theorem matches_documented_employee :
    let exps : List AttrExp := [⟨"team", .eq, ["b", "a"]⟩, ⟨"contractor", .excludes, [""]⟩]
    let attrs : List Attribute := [⟨"team", ["a", "b"], 10, "ldap"⟩]
    (⟨exps, [], none⟩ : JPolicy).matches 5 attrs = true ∧ ∀ exp ∈ exps, exp.Means attrs := by
  have matched : (⟨[⟨"team", .eq, ["b", "a"]⟩, ⟨"contractor", .excludes, [""]⟩], [], none⟩ :
      JPolicy).matches 5 [⟨"team", ["a", "b"], 10, "ldap"⟩] = true := by decide +kernel
  exact ⟨matched, ((matches_documented (by simp [AttrExp.Plain]) (by decide)).1.mp matched).1⟩

end VisaService
