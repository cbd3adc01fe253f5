/-
Redaction.lean

What a tool's redaction hides: the tool executor replaces, in the arguments and
results it records, every value whose key contains one of the tool's redaction
rules.  Rules and keys are compared in lower case.

A value is known after its redaction exactly up to `AgreeOutside`: the values
under matched keys may be anything, everything else is as it was
(`redact_eq_iff`).  That redacting hides what the rules name, and that a second
redaction changes nothing, are both read off that equivalence.
-/
import OpenAgency.Domain.Basic

namespace OpenAgency

/-- What `SecuritySettings` says about redaction. -/
structure RedactionSettings where
  redactionEnabled : Bool := false
  redactionRules : List String := []

section

variable (lower : String → String) (rules : List String)

/-- `any(rule in key for rule in rules)`. -/
def matchesRule (key : String) : Bool := rules.any (isIn · key)

/-- The last branch of `redact`, of a value that is neither a dict nor a list. -/
def redactLeaf (key : Option String) (leaf : Json) : Json :=
  if key.any fun key => key ≠ "" && matchesRule rules key then .str "[REDACTED]" else leaf

mutual

/-- `redact`, with the lower-case key the value was found under. -/
def redact (key : Option String) : Json → Json
  | .obj fields => .obj (redactFields fields)
  | .arr items => .arr (redactItems key items)
  | leaf => redactLeaf rules key leaf

def redactItems (key : Option String) : List Json → List Json
  | [] => []
  | item :: items => redact key item :: redactItems key items

def redactFields : List (String × Json) → List (String × Json)
  | [] => []
  | (nestedKey, value) :: fields =>
    let keyName := lower nestedKey
    (nestedKey,
      if keyName ∈ rules || matchesRule rules keyName then .str "[REDACTED]"
      else redact (some keyName) value) :: redactFields fields

end

end

/-- `_redact_value`; `lower` is `str.lower`. -/
def redactValue (lower : String → String) (security : RedactionSettings) (value : Json) : Json :=
  if security.redactionEnabled then
    redact lower (security.redactionRules.map lower) none value
  else value

/-! ### Agreement outside the matched keys -/

section

variable (matched : String → Bool)

mutual

/-- Two values of the same shape that differ in nothing but values stored under
matched keys. -/
def AgreeOutside : Json → Json → Prop
  | .arr items, .arr items' => AgreeItems items items'
  | .obj fields, .obj fields' => AgreeFields fields fields'
  | .null, .null => True
  | .bool b, .bool b' => b = b'
  | .num q, .num q' => q = q'
  | .str s, .str s' => s = s'
  | _, _ => False

def AgreeItems : List Json → List Json → Prop
  | [], [] => True
  | item :: items, item' :: items' => AgreeOutside item item' ∧ AgreeItems items items'
  | _, _ => False

def AgreeFields : List (String × Json) → List (String × Json) → Prop
  | [], [] => True
  | (key, value) :: fields, (key', value') :: fields' =>
    key = key' ∧ (matched key = false → AgreeOutside value value') ∧ AgreeFields fields fields'
  | _, _ => False

end

end

section

variable {lower : String → String} {rules : List String}

/-- A key in the rules contains a rule: the membership test adds nothing. -/
theorem matchesRule_of_mem {key : String} (h : key ∈ rules) : matchesRule rules key = true := by
  simp only [matchesRule, List.any_eq_true]
  exact ⟨key, h, by simp [isIn]⟩

theorem redacts_iff (key : String) :
    (key ∈ rules || matchesRule rules key) = matchesRule rules key := by
  by_cases h : key ∈ rules
  · simp [matchesRule_of_mem h]
  · simp [h]

/-- A leaf found under no matched key is kept. -/
theorem redactLeaf_eq {key : Option String} (h : ∀ k ∈ key, matchesRule rules k = false)
    (leaf : Json) : redactLeaf rules key leaf = leaf := by
  cases key with
  | none => rfl
  | some k => simp [redactLeaf, h k rfl]

mutual

/-- **What a redaction tells.**  Two values have the same redaction exactly when
they agree outside the matched keys. -/
theorem redact_eq_iff {key : Option String} (hkey : ∀ k ∈ key, matchesRule rules k = false) :
    ∀ v w : Json, redact lower rules key v = redact lower rules key w ↔
      AgreeOutside (fun k => matchesRule rules (lower k)) v w
  | .obj fields, .obj fields' => by
      simpa [redact, AgreeOutside] using redactFields_eq_iff fields fields'
  | .arr items, .arr items' => by
      simpa [redact, AgreeOutside] using redactItems_eq_iff hkey items items'
  | .null, w => by cases w <;> simp [redact, AgreeOutside, redactLeaf_eq hkey]
  | .bool b, w => by cases w <;> simp [redact, AgreeOutside, redactLeaf_eq hkey]
  | .num q, w => by cases w <;> simp [redact, AgreeOutside, redactLeaf_eq hkey]
  | .str s, w => by cases w <;> simp [redact, AgreeOutside, redactLeaf_eq hkey]
  | .obj fields, .null | .obj fields, .bool _ | .obj fields, .num _ | .obj fields, .str _
  | .obj fields, .arr _ => by simp [redact, AgreeOutside, redactLeaf_eq hkey]
  | .arr items, .null | .arr items, .bool _ | .arr items, .num _ | .arr items, .str _
  | .arr items, .obj _ => by simp [redact, AgreeOutside, redactLeaf_eq hkey]

theorem redactItems_eq_iff {key : Option String} (hkey : ∀ k ∈ key, matchesRule rules k = false) :
    ∀ items items' : List Json,
      redactItems lower rules key items = redactItems lower rules key items' ↔
        AgreeItems (fun k => matchesRule rules (lower k)) items items'
  | [], [] | [], _ :: _ | _ :: _, [] => by simp [redactItems, AgreeItems]
  | item :: items, item' :: items' => by
      simp only [redactItems, AgreeItems, List.cons.injEq]
      exact and_congr (redact_eq_iff hkey item item') (redactItems_eq_iff hkey items items')

theorem redactFields_eq_iff :
    ∀ fields fields' : List (String × Json),
      redactFields lower rules fields = redactFields lower rules fields' ↔
        AgreeFields (fun k => matchesRule rules (lower k)) fields fields'
  | [], [] | [], _ :: _ | _ :: _, [] => by simp [redactFields, AgreeFields]
  | (key, value) :: fields, (key', value') :: fields' => by
      simp only [redactFields, AgreeFields, redacts_iff, List.cons.injEq, Prod.mk.injEq, and_assoc]
      refine and_congr_right fun hkeys => and_congr ?_ (redactFields_eq_iff fields fields')
      subst hkeys
      cases hmatched : matchesRule rules (lower key) with
      | true => simp
      | false =>
        have hfound : ∀ k ∈ some (lower key), matchesRule rules k = false := by
          simpa using hmatched
        simpa using redact_eq_iff hfound value value'

end

mutual

/-- A redaction changes nothing but values under matched keys. -/
theorem agreeOutside_redact {key : Option String} (hkey : ∀ k ∈ key, matchesRule rules k = false) :
    ∀ v : Json, AgreeOutside (fun k => matchesRule rules (lower k)) (redact lower rules key v) v
  | .obj fields => by simpa [redact, AgreeOutside] using agreeFields_redact fields
  | .arr items => by simpa [redact, AgreeOutside] using agreeItems_redact hkey items
  | .null | .bool _ | .num _ | .str _ => by simp [redact, AgreeOutside, redactLeaf_eq hkey]

theorem agreeItems_redact {key : Option String} (hkey : ∀ k ∈ key, matchesRule rules k = false) :
    ∀ items : List Json, AgreeItems (fun k => matchesRule rules (lower k))
      (redactItems lower rules key items) items
  | [] => trivial
  | item :: items => ⟨agreeOutside_redact hkey item, agreeItems_redact hkey items⟩

theorem agreeFields_redact :
    ∀ fields : List (String × Json), AgreeFields (fun k => matchesRule rules (lower k))
      (redactFields lower rules fields) fields
  | [] => trivial
  | (key, value) :: fields => by
      refine ⟨rfl, fun hmatched => ?_, agreeFields_redact fields⟩
      -- an unmatched key: its value is redacted in turn, under a key no rule is in
      have hfound : ∀ k ∈ some (lower key), matchesRule rules k = false := by
        simpa using hmatched
      rw [redacts_iff, if_neg (by simpa using hmatched)]
      exact agreeOutside_redact hfound value

end

end

/-- **Redaction hides what it names.**  Where a tool redacts, values that differ
only under keys its rules match are redacted to the same value, and a second
redaction changes nothing. -/
theorem redactValue_hides (lower : String → String) (security : RedactionSettings)
    (henabled : security.redactionEnabled = true) :
    (∀ v w, AgreeOutside (fun k => matchesRule (security.redactionRules.map lower) (lower k)) v w →
      redactValue lower security v = redactValue lower security w) ∧
    ∀ v, redactValue lower security (redactValue lower security v) =
      redactValue lower security v := by
  have hnone : ∀ k ∈ (none : Option String),
      matchesRule (security.redactionRules.map lower) k = false := by simp
  simp only [redactValue, henabled, if_true]
  constructor
  · intro v w hagree
    exact (redact_eq_iff hnone v w).mpr hagree
  · intro v
    exact (redact_eq_iff hnone _ _).mpr (agreeOutside_redact hnone v)

/-- A token and a nested password are hidden, whatever they are; the rest is told. -/
theorem redactValue_hides_secret :
    redactValue id { redactionEnabled := true, redactionRules := ["token"] }
        (.obj [("api_token", .arr [.num 1]), ("body", .str "hi")]) =
      redactValue id { redactionEnabled := true, redactionRules := ["token"] }
        (.obj [("api_token", .str "s3cret"), ("body", .str "hi")]) := by
  refine (redactValue_hides id _ rfl).1 _ _ ?_
  have hmatched : matchesRule ["token"] "api_token" = true := by decide +kernel
  simp [AgreeOutside, AgreeFields, hmatched]

end OpenAgency
