import TxWatch.AlertRegistry.Helpers
import TxWatch.Soroban.Scan

/-!
# The grammar of rule lists

`validate_rules` is a scan: each rule is checked against the descriptors and
against the rules before it.  What it accepts and which error it ends in can
therefore be read off the positions of the list.
-/

namespace TxWatch
namespace AlertRegistry

open Soroban

/-- The rule descriptors. -/
def ruleDescriptors : List HostString :=
  [ruleTransfer, ruleMint, ruleInvoke, ruleAll]

/-- The rule at a position is no descriptor, or it equals one before it. -/
def Offends (rules : List HostString) (i : Nat) : Prop :=
  ∃ rule, rules[i]? = some rule ∧
    (rule ∉ ruleDescriptors ∨ rule ∈ rules.take i)

section Checks

/-- What the pass of `validate_rules` does with one rule. -/
def checkRule (seen : List HostString) (rule : HostString) :
    Except ContractError Unit :=
  if rule ∉ ruleDescriptors then .error .invalidRuleDescriptor
  else if rule ∈ seen then .error .duplicateRule
  else .ok ()

theorem validateRule_eq (rule : HostString) :
    validateRule rule =
      if rule ∉ ruleDescriptors then .error .invalidRuleDescriptor
      else .ok () := by
  simp [validateRule, ruleDescriptors]

theorem validateRulesFrom_eq_scan (seen rules : List HostString) :
    validateRulesFrom seen rules = scan checkRule seen rules := by
  induction rules generalizing seen with
  | nil => rfl
  | cons rule rest ih =>
      rw [validateRulesFrom, scan, checkRule, validateRule_eq, ih]
      by_cases hknown : rule ∈ ruleDescriptors
      · by_cases hseen : rule ∈ seen
        · simp [hknown, hseen, bind, Except.bind]
        · simp [hknown, hseen, bind, Except.bind]
      · simp [hknown, bind, Except.bind]

variable {seen : List HostString} {rule : HostString}

theorem checkRule_eq_ok_iff :
    checkRule seen rule = .ok () ↔ rule ∈ ruleDescriptors ∧ rule ∉ seen := by
  unfold checkRule
  by_cases hknown : rule ∈ ruleDescriptors
  · simp [hknown]
  · simp [hknown]

theorem checkRule_eq_invalid_iff :
    checkRule seen rule = .error .invalidRuleDescriptor ↔
      rule ∉ ruleDescriptors := by
  unfold checkRule
  by_cases hknown : rule ∈ ruleDescriptors
  · by_cases hseen : rule ∈ seen
    · simp [hknown, hseen]
    · simp [hknown, hseen]
  · simp [hknown]

theorem checkRule_eq_duplicate_iff :
    checkRule seen rule = .error .duplicateRule ↔
      rule ∈ ruleDescriptors ∧ rule ∈ seen := by
  unfold checkRule
  by_cases hknown : rule ∈ ruleDescriptors
  · simp [hknown]
  · simp [hknown]

theorem checkRule_error
    {e : ContractError} (h : checkRule seen rule = .error e) :
    e = .invalidRuleDescriptor ∨ e = .duplicateRule := by
  unfold checkRule at h
  split_ifs at h
  · exact Or.inr (Except.error.inj h).symm
  · exact Or.inl (Except.error.inj h).symm

theorem refusals_checkRule (rules : List HostString) :
    refusals checkRule [] rules = {i | Offends rules i} := by
  ext i
  simp only [refusals, Offends, List.nil_append, ne_eq, checkRule_eq_ok_iff,
    Set.mem_ofPred_eq]
  refine exists_congr fun rule => and_congr_right fun _ => ?_
  tauto

end Checks

section Verdicts

variable {rules : List HostString}

theorem validateRules_of_bounded
    (hne : rules ≠ []) (hlength : rules.length ≤ 50) :
    validateRules rules = scan checkRule [] rules := by
  rw [← validateRulesFrom_eq_scan]
  simp [validateRules, hne, Nat.not_lt.mpr hlength]

/-- A list without offences consists of different descriptors. -/
theorem not_offends_iff :
    (∀ i, ¬ Offends rules i) ↔
      rules.Nodup ∧ ∀ rule ∈ rules, rule ∈ ruleDescriptors := by
  rw [nodup_iff_not_mem_take]
  constructor
  · intro h
    refine ⟨?_, ?_⟩
    · intro i rule hget hmem
      exact h i ⟨rule, hget, Or.inr hmem⟩
    · intro rule hmem
      obtain ⟨i, hget⟩ := List.mem_iff_getElem?.mp hmem
      by_contra hunknown
      exact h i ⟨rule, hget, Or.inl hunknown⟩
  · rintro ⟨hnew, hknown⟩ i ⟨rule, hget, hunknown | hmem⟩
    · exact hunknown (hknown rule (List.mem_of_getElem? hget))
    · exact hnew i rule hget hmem

/-- Different descriptors are no more than there are. -/
theorem length_le_of_known
    (hnodup : rules.Nodup) (hknown : ∀ rule ∈ rules, rule ∈ ruleDescriptors) :
    rules.length ≤ 4 := by
  exact (hnodup.subperm hknown).length_le

theorem validateRules_eq_ok_iff :
    validateRules rules = .ok () ↔
      rules ≠ [] ∧ rules.Nodup ∧ ∀ rule ∈ rules, rule ∈ ruleDescriptors := by
  have hscan : scan checkRule [] rules = .ok () ↔
      rules.Nodup ∧ ∀ rule ∈ rules, rule ∈ ruleDescriptors := by
    rw [scan_eq_ok_iff, refusals_checkRule]
    exact not_offends_iff
  constructor
  · intro h
    have hne : rules ≠ [] := by
      rintro rfl
      cases h
    have hlength : rules.length ≤ 50 := by
      by_contra hlong
      simp [validateRules, hne, Nat.not_le.mp hlong] at h
    rw [validateRules_of_bounded hne hlength] at h
    exact ⟨hne, hscan.mp h⟩
  · rintro ⟨hne, hnodup, hknown⟩
    have hlength := length_le_of_known hnodup hknown
    rw [validateRules_of_bounded hne (by omega)]
    exact hscan.mpr ⟨hnodup, hknown⟩

/-- The errors of the pass are those of lists that are neither empty nor too
long. -/
theorem validateRules_eq_error_iff
    {e : ContractError} (hempty : e ≠ .emptyRules) (hmany : e ≠ .tooManyRules) :
    validateRules rules = .error e ↔
      rules.length ≤ 50 ∧ ∃ i rule, IsLeast {i | Offends rules i} i ∧
        rules[i]? = some rule ∧ checkRule (rules.take i) rule = .error e := by
  have hscan := scan_eq_error_iff checkRule [] rules e
  rw [refusals_checkRule] at hscan
  simp only [List.nil_append] at hscan
  rw [← hscan]
  by_cases hne : rules = []
  · subst hne
    simp [validateRules, scan, hempty.symm]
  · by_cases hlength : rules.length ≤ 50
    · rw [validateRules_of_bounded hne hlength]
      simp [hlength]
    · simp [validateRules, hne, hlength, Nat.not_le.mp hlength, hmany.symm]

/-- A rule that equals an earlier one is a descriptor, unless the earlier one
is an offence itself. -/
theorem known_of_mem_take
    {i : Nat} {rule : HostString} (hleast : IsLeast {i | Offends rules i} i)
    (hmem : rule ∈ rules.take i) :
    rule ∈ ruleDescriptors := by
  obtain ⟨j, hj, hget⟩ := List.mem_take_iff_getElem.mp hmem
  have hlt : j < i ∧ j < rules.length := lt_min_iff.mp hj
  by_contra hunknown
  have hoffence : Offends rules j :=
    ⟨rule, List.getElem?_eq_some_iff.mpr ⟨hlt.2, hget⟩, Or.inl hunknown⟩
  have hle := hleast.2 hoffence
  omega

/-- The errors of `validate_rules`, and what the first two of them mean. -/
theorem validateRules_error_cases
    {e : ContractError} (h : validateRules rules = .error e) :
    (e = .emptyRules ∧ rules = []) ∨ (e = .tooManyRules ∧ 50 < rules.length) ∨
      e = .invalidRuleDescriptor ∨ e = .duplicateRule := by
  by_cases hne : rules = []
  · subst hne
    exact Or.inl ⟨(Except.error.inj h).symm, rfl⟩
  · by_cases hlength : rules.length ≤ 50
    · rw [validateRules_of_bounded hne hlength] at h
      obtain ⟨before, rule, -, herror⟩ := exists_check_of_scan_eq_error h
      exact Or.inr (Or.inr (checkRule_error herror))
    · have hlong : 50 < rules.length := Nat.not_le.mp hlength
      have hmany : validateRules rules = .error .tooManyRules := by
        simp [validateRules, hne, hlong]
      rw [hmany] at h
      exact Or.inr (Or.inl ⟨(Except.error.inj h).symm, hlong⟩)

/-- `validate_rules` accepts exactly the non-empty lists of different
descriptors.  It tells an empty list and a list of more than 50 rules from the
others, and of these it reports the least position that offends, with the error
of its offence. -/
theorem validate_rules_grammar (rules : List HostString) :
    (validateRules rules = .ok () ↔
      rules ≠ [] ∧ rules.Nodup ∧
        ∀ rule ∈ rules, rule ∈ [ruleTransfer, ruleMint, ruleInvoke, ruleAll]) ∧
    (validateRules rules = .error .emptyRules ↔ rules = []) ∧
    (validateRules rules = .error .tooManyRules ↔ 50 < rules.length) ∧
    (validateRules rules = .error .invalidRuleDescriptor ↔
      rules.length ≤ 50 ∧ ∃ i rule, IsLeast {i | Offends rules i} i ∧
        rules[i]? = some rule ∧ rule ∉ ruleDescriptors) ∧
    (validateRules rules = .error .duplicateRule ↔
      rules.length ≤ 50 ∧ ∃ i rule, IsLeast {i | Offends rules i} i ∧
        rules[i]? = some rule ∧ rule ∈ rules.take i) ∧
    ∀ e, validateRules rules = .error e →
      e ∈ [.emptyRules, .tooManyRules, .invalidRuleDescriptor,
        .duplicateRule] := by
  refine ⟨validateRules_eq_ok_iff, ?_, ?_, ?_, ?_, ?_⟩
  · constructor
    · intro h
      rcases validateRules_error_cases h with ⟨-, hnil⟩ | ⟨he, -⟩ | he | he
      · exact hnil
      all_goals cases he
    · rintro rfl
      rfl
  · constructor
    · intro h
      rcases validateRules_error_cases h with ⟨he, -⟩ | ⟨-, hlong⟩ | he | he
      · cases he
      · exact hlong
      all_goals cases he
    · intro hlong
      have hne : rules ≠ [] := by
        rintro rfl
        cases hlong
      simp [validateRules, hne, hlong]
  · rw [validateRules_eq_error_iff (by decide) (by decide)]
    simp only [checkRule_eq_invalid_iff]
  · rw [validateRules_eq_error_iff (by decide) (by decide)]
    simp only [checkRule_eq_duplicate_iff]
    constructor
    · rintro ⟨hlength, i, rule, hleast, hget, -, hmem⟩
      exact ⟨hlength, i, rule, hleast, hget, hmem⟩
    · rintro ⟨hlength, i, rule, hleast, hget, hmem⟩
      exact ⟨hlength, i, rule, hleast, hget, known_of_mem_take hleast hmem, hmem⟩
  · intro e h
    rcases validateRules_error_cases h with ⟨rfl, -⟩ | ⟨rfl, -⟩ | rfl | rfl
    all_goals simp

/-- The repeated rule comes before the malformed one. -/
example : validateRules [ruleMint, ruleAll, ruleMint, .fromStr "rule:"] =
    .error .duplicateRule := by
  rfl

end Verdicts

end AlertRegistry
end TxWatch
