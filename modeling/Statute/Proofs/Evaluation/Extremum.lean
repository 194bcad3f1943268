/-
This file proves that the smallest and the largest of operands are the first extreme ones, and that
operands without a common scale are refused.
-/

import Statute.Evaluation.Aggregate
import Statute.Proofs.Value.Order

namespace Statute

namespace Value

/-- No value goes the wanted way against this one. -/
def isExtreme (wanted : Ordering) (values : List Value) (value : Value) : Bool :=
  values.all fun other => other.compare value != some wanted

/-- All values are on one scale, or there is only one. -/
def AreRanked (values : List Value) : Prop :=
  values.length = 1 ∨ ∃ scale, ∀ value ∈ values, value.scale? = some scale

/-- It is enough that all values compare with the first one. -/
theorem areRanked_cons {first : Value} {rest : List Value}
    (comparable : ∀ value ∈ rest, (value.compare first).isSome = true) :
    AreRanked (first :: rest) := by
  cases rest with
  | nil => exact .inl rfl
  | cons second rest =>
      obtain ⟨scale, -, isFirst⟩ :=
        (isSome_compare second first).mp (comparable second List.mem_cons_self)
      refine .inr ⟨scale, List.forall_mem_cons.mpr ⟨isFirst, fun value member => ?_⟩⟩
      obtain ⟨other, isValue, isOther⟩ := (isSome_compare value first).mp (comparable value member)
      rw [isValue, ← isOther, isFirst]

end Value

namespace Aggregate

variable {aggregate : Aggregate} {wanted : Ordering} {first best : Value} {rest : List Value}

/-- The way in which the wanted operand compares with others. -/
def wanted? : Aggregate → Option Ordering
  | min => some .lt
  | max => some .gt
  | _ => none

/-- The first value that no other one beats, at its place among the values. -/
structure IsFirstExtreme (wanted : Ordering) (values : List Value) (best : Value) : Prop where
  unbeaten : ∀ other ∈ values, other.compare best ≠ some wanted
  isFirst : ∃ before after, values = before ++ best :: after ∧
    ∀ other ∈ before, best.compare other = some wanted

theorem IsFirstExtreme.find? {values : List Value} (extreme : IsFirstExtreme wanted values best) :
    values.find? (Value.isExtreme wanted values) = some best := by
  obtain ⟨before, after, rfl, beaten⟩ := extreme.isFirst
  refine List.find?_eq_some_iff_append.mpr ⟨?_, before, after, rfl, fun other member => ?_⟩
  · simpa [Value.isExtreme, or_imp, forall_and] using extreme.unbeaten
  · simp [Value.isExtreme, beaten other member]

theorem IsFirstExtreme.mem {values : List Value} (extreme : IsFirstExtreme wanted values best) :
    best ∈ values := by
  obtain ⟨before, after, rfl, -⟩ := extreme.isFirst
  simp

theorem IsFirstExtreme.single (strict : wanted ≠ .eq) (value : Value) :
    IsFirstExtreme wanted [value] value := by
  refine ⟨fun other member => ?_, [], [], rfl, fun other member => by cases member⟩
  cases List.mem_singleton.mp member
  exact fun beaten => Value.compare_asymm strict beaten beaten

/-- A value that is beaten by the next one is not the best. -/
theorem IsFirstExtreme.cons (strict : wanted ≠ .eq) {candidate : Value}
    (extreme : IsFirstExtreme wanted (candidate :: rest) best)
    (beaten : candidate.compare first = some wanted)
    (comparable : (best.compare first).isSome = true) :
    IsFirstExtreme wanted (first :: candidate :: rest) best := by
  -- otherwise the next value would beat the best one
  have beats : best.compare first = some wanted :=
    Decidable.byContradiction fun unbeaten => extreme.unbeaten candidate List.mem_cons_self
      (Value.compare_beats strict beaten comparable unbeaten)
  obtain ⟨before, after, split, earlier⟩ := extreme.isFirst
  refine ⟨List.forall_mem_cons.mpr ⟨Value.compare_asymm strict beats, extreme.unbeaten⟩,
    first :: before, after, congrArg (first :: ·) split, ?_⟩
  exact List.forall_mem_cons.mpr ⟨beats, earlier⟩

/-- A value that does not beat the one before it is not the best. -/
theorem IsFirstExtreme.insert (strict : wanted ≠ .eq) {candidate : Value}
    (extreme : IsFirstExtreme wanted (first :: rest) best)
    (unbeaten : candidate.compare first ≠ some wanted)
    (comparable : (candidate.compare first).isSome = true)
    (firstComparable : (first.compare best).isSome = true) :
    IsFirstExtreme wanted (first :: candidate :: rest) best := by
  obtain ⟨firstUnbeaten, othersUnbeaten⟩ := List.forall_mem_cons.mp extreme.unbeaten
  obtain ⟨before, after, split, earlier⟩ := extreme.isFirst
  constructor
  · have loses : candidate.compare best ≠ some wanted := fun beaten =>
      unbeaten (Value.compare_beats strict beaten firstComparable firstUnbeaten)
    exact List.forall_mem_cons.mpr ⟨firstUnbeaten, List.forall_mem_cons.mpr ⟨loses, othersUnbeaten⟩⟩
  · cases before with
    | nil =>
        obtain ⟨rfl, rfl⟩ := List.cons.inj split
        exact ⟨[], candidate :: rest, rfl, fun other member => by cases member⟩
    | cons earliest before =>
        obtain ⟨rfl, rfl⟩ := List.cons.inj split
        obtain ⟨beats, earlier⟩ := List.forall_mem_cons.mp earlier
        have beatsNext : best.compare candidate = some wanted :=
          Value.compare_beats strict beats comparable unbeaten
        exact ⟨first :: candidate :: before, after, rfl,
          List.forall_mem_cons.mpr ⟨beats, List.forall_mem_cons.mpr ⟨beatsNext, earlier⟩⟩⟩

theorem foldlM_better_cons {candidate : Value} {ordering : Ordering}
    (compared : candidate.compare first = some ordering) :
    (candidate :: rest).foldlM (aggregate.better wanted) first =
      rest.foldlM (aggregate.better wanted) (if ordering = wanted then candidate else first) := by
  rw [List.foldlM_cons, better, compared]
  rfl

/-- Values of one scale have a best one. -/
theorem foldlM_better (strict : wanted ≠ .eq) {scale : Value.Scale}
    (ranked : ∀ value ∈ first :: rest, value.scale? = some scale) :
    ∃ best, rest.foldlM (aggregate.better wanted) first = .ok best ∧
      IsFirstExtreme wanted (first :: rest) best := by
  induction rest generalizing first with
  | nil =>
      exact ⟨first, rfl, .single strict first⟩
  | cons candidate rest inductionHypothesis =>
      obtain ⟨isFirst, isCandidate, others⟩ : first.scale? = some scale ∧
          candidate.scale? = some scale ∧ ∀ value ∈ rest, value.scale? = some scale := by
        simpa [or_imp, forall_and] using ranked
      have comparable := Value.isSome_compare_of_scale isCandidate isFirst
      obtain ⟨ordering, compared⟩ := Option.isSome_iff_exists.mp comparable
      rw [foldlM_better_cons compared]
      by_cases wins : ordering = wanted
      · rw [if_pos wins]
        obtain ⟨best, isResult, extreme⟩ :=
          inductionHypothesis (List.forall_mem_cons.mpr ⟨isCandidate, others⟩)
        have isBest := ranked best (List.mem_cons_of_mem _ extreme.mem)
        exact ⟨best, isResult, extreme.cons strict (wins ▸ compared)
          (Value.isSome_compare_of_scale isBest isFirst)⟩
      · rw [if_neg wins]
        obtain ⟨best, isResult, extreme⟩ :=
          inductionHypothesis (List.forall_mem_cons.mpr ⟨isFirst, others⟩)
        have isBest := ranked best
          (((List.sublist_cons_self candidate rest).cons_cons first).mem extreme.mem)
        have unbeaten : candidate.compare first ≠ some wanted := fun same =>
          wins (Option.some.inj (compared.symm.trans same))
        exact ⟨best, isResult, extreme.insert strict unbeaten comparable
          (Value.isSome_compare_of_scale isFirst isBest)⟩

theorem foldlM_ranked (strict : wanted ≠ .eq) (ranked : Value.AreRanked (first :: rest)) :
    ∃ best, rest.foldlM (aggregate.better wanted) first = .ok best ∧
      IsFirstExtreme wanted (first :: rest) best := by
  rcases ranked with single | ⟨scale, ranked⟩
  · obtain rfl : rest = [] := List.length_eq_zero_iff.mp (Nat.succ.inj single)
    exact ⟨first, rfl, .single strict first⟩
  · exact foldlM_better strict ranked

/-- An operand that does not compare with the first one is refused, or another one before it. -/
theorem foldlM_refuses (refused : ∃ value ∈ rest, value.compare first = none) :
    ∃ candidate ∈ first :: rest, ∃ best ∈ first :: rest,
      rest.foldlM (aggregate.better wanted) first =
        .error (.typeMismatch (Operator.aggregate aggregate).name
          ("cannot order " ++ candidate.typeName ++ " and " ++ best.typeName)) := by
  induction rest generalizing first with
  | nil =>
      obtain ⟨value, member, _⟩ := refused
      cases member
  | cons candidate rest inductionHypothesis =>
      cases compared : candidate.compare first with
      | none =>
          refine ⟨candidate, by simp, first, by simp, ?_⟩
          rw [List.foldlM_cons, better, compared]
          rfl
      | some ordering =>
          obtain ⟨value, member, incomparable⟩ := refused
          have later : value ∈ rest := by
            refine (List.mem_cons.mp member).resolve_left fun same => ?_
            rw [same, compared] at incomparable
            cases incomparable
          rw [foldlM_better_cons compared]
          -- the next value is on the scale of the first one
          have stillRefused : value.compare (if ordering = wanted then candidate else first) = none := by
            split
            · refine Option.not_isSome_iff_eq_none.mp fun comparable => ?_
              have same := Value.isSome_compare_trans comparable (by rw [compared]; rfl)
              rw [incomparable] at same
              cases same
            · exact incomparable
          obtain ⟨second, isSecond, third, isThird, failed⟩ :=
            inductionHypothesis ⟨value, later, stillRefused⟩
          have known {value : Value}
              (member : value ∈ (if ordering = wanted then candidate else first) :: rest) :
              value ∈ first :: candidate :: rest := by
            split at member
            · exact List.mem_cons_of_mem _ member
            · exact ((List.sublist_cons_self candidate rest).cons_cons first).mem member
          exact ⟨second, known isSecond, third, known isThird, failed⟩

theorem strict_of_wanted? (isWanted : aggregate.wanted? = some wanted) : wanted ≠ .eq := by
  rintro rfl
  cases aggregate <;> cases isWanted

theorem combine_extremum (isWanted : aggregate.wanted? = some wanted) (operands : List Value) :
    aggregate.combine operands = aggregate.extremum wanted operands := by
  cases aggregate <;> cases isWanted <;> rfl

/-- The smallest or largest of operands, of which some are not null, exists exactly when those are on one
scale or there is only one. It is the first that no other one beats. All other operands are refused for the
kinds of two of them. -/
theorem apply_extremum (isWanted : aggregate.wanted? = some wanted) (operands : List Value)
    (given : ∃ operand ∈ operands, operand.isNull = false) :
    let present := operands.filter fun operand => !operand.isNull
    ((∃ best, aggregate.apply operands = .ok best) ↔ Value.AreRanked present) ∧
    (∀ best, aggregate.apply operands = .ok best →
      present.find? (Value.isExtreme wanted present) = some best) ∧
    (¬ Value.AreRanked present →
      ∃ candidate ∈ present, ∃ best ∈ present, aggregate.apply operands =
        .error (.typeMismatch (Operator.aggregate aggregate).name
          ("cannot order " ++ candidate.typeName ++ " and " ++ best.typeName))) := by
  intro present
  have strict := strict_of_wanted? isWanted
  obtain ⟨operand, member, isGiven⟩ := given
  have isPresent : operand ∈ present := List.mem_filter.mpr ⟨member, by simp [isGiven]⟩
  obtain ⟨first, rest, split⟩ := List.exists_cons_of_ne_nil (List.ne_nil_of_mem isPresent)
  have applied : aggregate.apply operands = rest.foldlM (aggregate.better wanted) first := by
    have filtered : (operands.filter fun operand => !operand.isNull) = first :: rest := split
    rw [apply, filtered]
    exact combine_extremum isWanted (first :: rest)
  rw [applied, split]
  by_cases ranked : Value.AreRanked (first :: rest)
  · obtain ⟨best, isResult, extreme⟩ := foldlM_ranked strict ranked
    rw [isResult]
    refine ⟨⟨fun _ => ranked, fun _ => ⟨best, rfl⟩⟩, fun other same => ?_,
      fun unranked => absurd ranked unranked⟩
    cases same
    exact extreme.find?
  · have refused : ∃ value ∈ rest, value.compare first = none := by
      refine Classical.byContradiction fun none => ranked (Value.areRanked_cons fun value member => ?_)
      refine Option.isSome_iff_ne_none.mpr fun incomparable => none ⟨value, member, incomparable⟩
    obtain ⟨candidate, isCandidate, best, isBest, failed⟩ := foldlM_refuses refused
    rw [failed]
    refine ⟨⟨fun ⟨best, same⟩ => ?_, fun areRanked => absurd areRanked ranked⟩,
      fun best same => ?_, fun _ => ⟨candidate, isCandidate, best, isBest, rfl⟩⟩
    · cases same
    · cases same

/-- Of two equal rates the first one is the smallest, and a rate does not compare with a text. -/
theorem apply_extremum_rates :
    let rate := Value.float (Double.ofInt 2)
    min.apply [.null, .int 3, rate, .int 2] = .ok rate ∧
      ∃ reason, max.apply [.int 3, .null, .string "2"] = .error (.typeMismatch "MAX" reason) := by
  intro rate
  have smallest : min.wanted? = some .lt := rfl
  have largest : max.wanted? = some .gt := rfl
  constructor
  · obtain ⟨exists_iff, first, -⟩ := apply_extremum smallest [.null, .int 3, rate, .int 2]
      ⟨rate, by simp, rfl⟩
    obtain ⟨best, isResult⟩ := exists_iff.mpr (.inr ⟨.number, by decide +kernel⟩)
    have beaten : Value.isExtreme .lt [.int 3, rate, .int 2] (.int 3) = false := by decide +kernel
    have unbeaten : Value.isExtreme .lt [.int 3, rate, .int 2] rate = true := by decide +kernel
    have found : [.int 3, rate, .int 2].find? (Value.isExtreme .lt [.int 3, rate, .int 2]) =
        some rate := by
      rw [List.find?_cons_of_neg (by simp [beaten]), List.find?_cons_of_pos unbeaten]
    cases (first best isResult).symm.trans found
    exact isResult
  · obtain ⟨-, -, refused⟩ := apply_extremum largest [.int 3, .null, .string "2"]
      ⟨.int 3, by simp, rfl⟩
    have unranked : ¬ Value.AreRanked [.int 3, .string "2"] := by
      rintro (single | ⟨scale, ranked⟩)
      · cases single
      · have number : Value.Scale.number = scale := Option.some.inj (ranked (.int 3) (by simp))
        have text : Value.Scale.text = scale := Option.some.inj (ranked (.string "2") (by simp))
        cases number.trans text.symm
    obtain ⟨candidate, -, best, -, failed⟩ := refused unranked
    exact ⟨_, failed⟩

end Aggregate

end Statute
