/-
Domain/Basic.lean

The values every part of the runtime shares: identifiers, instants, JSON
values, the few string operations the code uses, and the exceptions it raises.

Identifiers drawn by `uuid4` are only compared, ordered and rendered, so they
are numbers; an instant counts microseconds.
-/
import Mathlib.Algebra.GroupWithZero.Nat
import Mathlib.Algebra.Order.Ring.Rat
import Mathlib.Data.List.DropRight
import Mathlib.Data.List.Infix

namespace OpenAgency

/-- A `uuid4` identifier. -/
abbrev Uuid := ℕ

/-- An instant, in microseconds. -/
abbrev Time := ℕ

/-- Texts are compared as lists of characters. -/
instance lawfulBEqChars : LawfulBEq (List Char) := inferInstance

/-- `datetime.isoformat`. -/
def isoformat (t : Time) : String := toString t

/-- `needle in value`, of strings. -/
def isIn (needle value : String) : Bool := needle.toList <:+: value.toList

/-- Microseconds in `n` seconds. -/
def seconds (n : ℕ) : Time := n * 1000000

/-- `timedelta(seconds=q)`, rounded to the nearest even microsecond. -/
def timedelta (q : ℚ) : Time :=
  let n := (q * 1000000).floor
  let rest := q * 1000000 - n
  if rest < 1 / 2 ∨ rest = 1 / 2 ∧ n % 2 = 0 then n.toNat else (n + 1).toNat

/-- Lexicographic `≤`, the order of an `ORDER BY` with several columns. -/
def lexLe : List ℕ → List ℕ → Bool
  | [], _ => true
  | _ :: _, [] => false
  | a :: as, b :: bs => a < b || (a = b && lexLe as bs)

/-! ### JSON -/

/-- A JSON value; an object keeps the order its keys were inserted in. -/
inductive Json where
  | null
  | bool (b : Bool)
  | num (q : ℚ)
  | str (s : String)
  | arr (items : List Json)
  | obj (fields : List (String × Json))
  deriving Inhabited

namespace Json

/-- `value.get(k)` when the value is a dict. -/
def get? : Json → String → Option Json
  | obj fields, k => fields.lookup k
  | _, _ => none

/-- `isinstance(value, str)`. -/
def asStr? : Json → Option String
  | str s => some s
  | _ => none

/-- `value.get(key)` when it is a string. -/
def string? (value : Json) (key : String) : Option String := (value.get? key).bind asStr?

/-- The value itself when it is a dict. -/
def asObj? : Json → Option Json
  | obj fields => some (obj fields)
  | _ => none

/-- An optional string; `None` is `null`. -/
def ofOption (s : Option String) : Json := s.elim null str

def strs (items : List String) : Json := arr (items.map str)

def nat (n : ℕ) : Json := num n

/-- `bool(value)`. -/
def truthy : Json → Bool
  | null => false
  | bool b => b
  | num q => q ≠ 0
  | str s => s ≠ ""
  | arr items => !items.isEmpty
  | obj fields => !fields.isEmpty

/-- `a or b`. -/
def orElse (a b : Json) : Json := if a.truthy then a else b

/-- `value is None`. -/
def isNull : Json → Bool
  | null => true
  | _ => false

/-- `value is True`. -/
def isTrue : Json → Bool
  | bool b => b
  | _ => false

/-- The dict a value is. -/
def asDict? : Json → Option (List (String × Json))
  | obj fields => some fields
  | _ => none

mutual

/-- `==` on JSON values. -/
def eq : Json → Json → Bool
  | .null, .null => true
  | .str a, .str b => a = b
  | .bool a, .bool b => a = b
  | .bool a, .num q | .num q, .bool a => q = if a then 1 else 0
  | .num p, .num q => p = q
  | .arr as, .arr bs => eqItems as bs
  | .obj as, .obj bs => as.length = bs.length && eqFields as bs
  | _, _ => false

def eqItems : List Json → List Json → Bool
  | [], [] => true
  | a :: as, b :: bs => eq a b && eqItems as bs
  | _, _ => false

def eqFields : List (String × Json) → List (String × Json) → Bool
  | [], _ => true
  | (k, a) :: as, bs =>
    (match bs.lookup k with
      | some b => eq a b
      | none => false) && eqFields as bs

end

end Json

/-! ### Dictionaries -/

/-- A dict with string keys, in insertion order. -/
abbrev Dict (α : Type) := List (String × α)

namespace Dict

variable {α : Type}

/-- `d.get(k)`. -/
def get? (d : Dict α) (k : String) : Option α := d.lookup k

/-- `d[k] = v`: an existing key keeps its place. -/
def set : Dict α → String → α → Dict α
  | [], k, v => [(k, v)]
  | (k', v') :: d, k, v => if k = k' then (k', v) :: d else (k', v') :: set d k v

@[simp] theorem get?_nil (k : String) : get? ([] : Dict α) k = none := rfl

theorem get?_cons (k' : String) (v' : α) (d : Dict α) (k : String) :
    get? ((k', v') :: d) k = if k = k' then some v' else d.get? k := by
  by_cases h : k = k'
  · simp [get?, h]
  · simp [get?, List.lookup_cons, h, beq_eq_false_iff_ne.mpr h]

@[simp] theorem get?_set_self (d : Dict α) (k : String) (v : α) : (d.set k v).get? k = some v := by
  induction d with
  | nil => simp [set, get?_cons]
  | cons p d ih =>
    obtain ⟨k₁, v₁⟩ := p
    by_cases h : k = k₁
    · simp [set, get?_cons, h]
    · simpa [set, get?_cons, h] using ih

theorem get?_set_ne {d : Dict α} {k k' : String} {v : α} (h : k' ≠ k) :
    (d.set k v).get? k' = d.get? k' := by
  induction d with
  | nil => simp [set, get?_cons, h]
  | cons p d ih =>
    obtain ⟨k₁, v₁⟩ := p
    by_cases hk : k = k₁
    · subst hk
      simp [set, get?_cons, h]
    · simp [set, get?_cons, hk, ih]

end Dict

/-- `d.get(k)` of a dict of JSON values, where a missing key reads as `None`. -/
def Dict.getJson (d : Dict Json) (k : String) : Json := (d.get? k).getD .null

@[simp] theorem Dict.getJson_set_self (d : Dict Json) (k : String) (v : Json) :
    (d.set k v).getJson k = v := by
  rw [Dict.getJson, Dict.get?_set_self, Option.getD_some]

theorem Dict.getJson_set_ne {d : Dict Json} {k k' : String} {v : Json} (h : k' ≠ k) :
    (d.set k v).getJson k' = d.getJson k' := by
  rw [Dict.getJson, Dict.get?_set_ne h, Dict.getJson]

/-- `d.setdefault(k, v)`, unless `v` is `None`. -/
def Dict.setdefault (d : Dict Json) (k : String) (v : Option Json) : Dict Json :=
  match v.filter (!·.isNull) with
  | none => d
  | some v => if (d.get? k).isSome then d else d.set k v

/-- `{**d, **e}`. -/
def Dict.union {α : Type} (d e : Dict α) : Dict α := e.foldl (fun d p => d.set p.1 p.2) d

/-- A key of `{**d, **e}` has a value of `e`, or the one it has in `d`. -/
theorem Dict.get?_union {α : Type} (d e : Dict α) (k : String) :
    (d.union e).get? k = d.get? k ∨ ∃ v, (k, v) ∈ e ∧ (d.union e).get? k = some v := by
  unfold Dict.union
  induction e generalizing d with
  | nil => exact .inl rfl
  | cons p e ih =>
    obtain ⟨k₁, v₁⟩ := p
    rw [List.foldl_cons]
    rcases ih (d.set k₁ v₁) with hkept | ⟨v, hv, hset⟩
    · by_cases hk : k = k₁
      · subst hk
        exact .inr ⟨v₁, List.mem_cons_self, by rw [hkept, Dict.get?_set_self]⟩
      · exact .inl (by rw [hkept, Dict.get?_set_ne hk])
    · exact .inr ⟨v, List.mem_cons_of_mem _ hv, hset⟩

/-- What is merged into a dict leaves the other keys alone. -/
theorem Dict.get?_union_of_notMem {α : Type} {k : String} (d e : Dict α) (h : ∀ p ∈ e, p.1 ≠ k) :
    (d.union e).get? k = d.get? k := by
  rcases Dict.get?_union d e k with hkept | ⟨v, hv, -⟩
  · exact hkept
  · exact absurd rfl (h _ hv)

/-! ### Strings -/

/-- The characters `str.strip` removes. -/
def isStripSpace (c : Char) : Bool :=
  let n := c.toNat
  (9 ≤ n && n ≤ 13) || (28 ≤ n && n ≤ 32) || n == 0x85 || n == 0xa0 || n == 0x1680 ||
    (0x2000 ≤ n && n ≤ 0x200a) || n == 0x2028 || n == 0x2029 || n == 0x202f ||
    n == 0x205f || n == 0x3000

/-- `s.strip()`. -/
def strip (s : String) : String :=
  String.ofList ((s.toList.dropWhile isStripSpace).reverse.dropWhile isStripSpace).reverse

theorem toList_strip (s : String) :
    (strip s).toList = (s.toList.dropWhile isStripSpace).rdropWhile isStripSpace :=
  String.toList_ofList

/-- A character that stays keeps the text from becoming empty. -/
theorem strip_ne_empty {s : String} {c : Char} (hc : c ∈ s.toList) (hkept : isStripSpace c = false) :
    strip s ≠ "" := by
  intro h
  have htrim := toList_strip s
  rw [h] at htrim
  have hall := List.rdropWhile_eq_nil_iff.mp htrim.symm
  have hsplit : s.toList.takeWhile isStripSpace ++ s.toList.dropWhile isStripSpace = s.toList :=
    List.takeWhile_append_dropWhile
  rw [← hsplit, List.mem_append] at hc
  rcases hc with hc | hc
  · rw [List.mem_takeWhile_imp hc] at hkept
    cases hkept
  · rw [hall c hc] at hkept
    cases hkept

/-- A stripped text has no white space in front. -/
theorem dropWhile_strip (s : String) :
    (strip s).toList.dropWhile isStripSpace = (strip s).toList := by
  rw [toList_strip, List.dropWhile_eq_self_iff]
  intro hlength
  have hprefix := List.rdropWhile_prefix isStripSpace (s.toList.dropWhile isStripSpace)
  have hlength' : 0 < (s.toList.dropWhile isStripSpace).length := hlength.trans_le hprefix.length_le
  have hhead : ((s.toList.dropWhile isStripSpace).rdropWhile isStripSpace)[0] =
      (s.toList.dropWhile isStripSpace)[0] := hprefix.getElem hlength
  rw [hhead]
  exact List.dropWhile_get_zero_not isStripSpace s.toList hlength'

/-- A stripped text has no white space at the end. -/
theorem rdropWhile_strip (s : String) :
    (strip s).toList.rdropWhile isStripSpace = (strip s).toList := by
  rw [toList_strip, List.rdropWhile_idempotent]

theorem strip_strip (s : String) : strip (strip s) = strip s := by
  show String.ofList (((strip s).toList.dropWhile isStripSpace).rdropWhile isStripSpace) = strip s
  rw [dropWhile_strip, rdropWhile_strip, String.ofList_toList]

/-- A number is read off its decimal digits. -/
theorem natRepr_inj {n k : ℕ} (h : n.repr = k.repr) : n = k := by
  have hdigits : Nat.toDigits 10 n = Nat.toDigits 10 k := by
    rw [← Nat.toList_repr, ← Nat.toList_repr, h]
  rw [← Nat.ofDigitChars_toDigits (b := 10) (n := n) (by decide) (by decide), hdigits,
    Nat.ofDigitChars_toDigits (by decide) (by decide)]

/-- `s[:n]`. -/
def takeChars (n : ℕ) (s : String) : String := String.ofList (s.toList.take n)

/-! ### Exceptions -/

/-- The exception classes the modelled code raises or catches. -/
inductive ExceptionClass where
  | valueError
  | validationError
  | keyError
  | runtimeError
  | timeoutError
  | typeError
  | integrityError
  | dataError
  | executionNotFound
  | workflowNotFound
  | executionPaused
  | executionApprovalSuspended
  | executionCancelled
  | approvalRequired
  | toolExecution
  | maxIterationsReached
  | tokenBudgetExceeded
  | executionWaitNotFound
  | executionWaitConflict
  | containerRuntime
  | crewaiUnsupportedOperation
  | attributeError
  | overflowError
  | zeroDivisionError
  | scheduleConcurrency
  | goalNotFound
  | goalTransition
  deriving DecidableEq

/-- A raised exception: its class and its text. -/
structure RuntimeException where
  cls : ExceptionClass
  message : String
  deriving DecidableEq

namespace ExceptionClass

/-- `type(exc).__name__`. -/
def name : ExceptionClass → String
  | valueError => "ValueError"
  | validationError => "ValidationError"
  | keyError => "KeyError"
  | runtimeError => "RuntimeError"
  | timeoutError => "TimeoutError"
  | typeError => "TypeError"
  | integrityError => "IntegrityError"
  | dataError => "DataError"
  | executionNotFound => "ExecutionNotFoundError"
  | workflowNotFound => "WorkflowNotFoundError"
  | executionPaused => "ExecutionPausedError"
  | executionApprovalSuspended => "ExecutionApprovalSuspendedError"
  | executionCancelled => "ExecutionCancelledError"
  | approvalRequired => "ApprovalRequiredError"
  | toolExecution => "ToolExecutionError"
  | maxIterationsReached => "MaxIterationsReachedError"
  | tokenBudgetExceeded => "TokenBudgetExceededError"
  | executionWaitNotFound => "ExecutionWaitNotFoundError"
  | executionWaitConflict => "ExecutionWaitConflictError"
  | containerRuntime => "ContainerRuntimeError"
  | crewaiUnsupportedOperation => "CrewAIUnsupportedOperationError"
  | attributeError => "AttributeError"
  | overflowError => "OverflowError"
  | zeroDivisionError => "ZeroDivisionError"
  | scheduleConcurrency => "ScheduleConcurrencyError"
  | goalNotFound => "GoalNotFoundError"
  | goalTransition => "GoalTransitionError"

/-- `except ValueError` catches it. -/
def isValueError : ExceptionClass → Bool
  | valueError | validationError | executionWaitNotFound | executionWaitConflict | goalNotFound
  | goalTransition => true
  | _ => false

/-- `except ExecutionPausedError` catches it. -/
def isExecutionPaused : ExceptionClass → Bool
  | executionPaused | executionApprovalSuspended => true
  | _ => false

end ExceptionClass

theorem bind_eq_ok {ε α β : Type} {x : Except ε α} {f : α → Except ε β} {b : β} :
    (x >>= f) = .ok b ↔ ∃ a, x = .ok a ∧ f a = .ok b := by
  rcases x with e | a
  · exact ⟨fun h => (nomatch h), fun ⟨_, h, _⟩ => (nomatch h)⟩
  · exact ⟨fun h => ⟨a, rfl, h⟩, fun ⟨_, h, hf⟩ => Except.ok.inj h ▸ hf⟩

/-! ### Built-in conversions -/

/-- The zeros of the decimal digits that `int` reads; the other digits follow each. -/
def decimalZeros : List ℕ :=
  [0x30, 0x660, 0x6f0, 0x7c0, 0x966, 0x9e6, 0xa66, 0xae6, 0xb66, 0xbe6, 0xc66, 0xce6, 0xd66, 0xde6,
    0xe50, 0xed0, 0xf20, 0x1040, 0x1090, 0x17e0, 0x1810, 0x1946, 0x19d0, 0x1a80, 0x1a90, 0x1b50,
    0x1bb0, 0x1c40, 0x1c50, 0xa620, 0xa8d0, 0xa900, 0xa9d0, 0xa9f0, 0xaa50, 0xabf0, 0xff10, 0x104a0,
    0x10d30, 0x11066, 0x110f0, 0x11136, 0x111d0, 0x112f0, 0x11450, 0x114d0, 0x11650, 0x116c0,
    0x11730, 0x118e0, 0x11950, 0x11c50, 0x11d50, 0x11da0, 0x16a60, 0x16ac0, 0x16b50, 0x1d7ce,
    0x1d7d8, 0x1d7e2, 0x1d7ec, 0x1d7f6, 0x1e140, 0x1e2f0, 0x1e950, 0x1fbf0]

def decimalValue (c : Char) : Option ℕ :=
  (decimalZeros.find? fun d => d ≤ c.toNat && c.toNat < d + 10).map (c.toNat - ·)

/-- Decimal digits, single underscores between them, after the digits in `acc`. -/
def readDigits : List Char → List ℕ → Option (List ℕ)
  | [], acc => some acc
  | '_' :: c :: cs, acc => do
    let d ← decimalValue c
    readDigits cs (acc ++ [d])
  | c :: cs, acc => do
    let d ← decimalValue c
    readDigits cs (acc ++ [d])

/-- The number an unsigned literal stands for; a literal of more than 4300 digits is refused. -/
def readNat : List Char → Option ℕ
  | [] => none
  | c :: cs => do
    let d ← decimalValue c
    let ds ← readDigits cs [d]
    if 4300 < ds.length then none else some (ds.foldl (10 * · + ·) 0)

/-- `int(s)`. -/
def pyInt (s : String) : Except RuntimeException ℤ :=
  let value : Option ℤ := match (strip s).toList with
    | '-' :: cs => (readNat cs).map fun n => -(n : ℤ)
    | '+' :: cs => (readNat cs).map fun n => (n : ℤ)
    | cs => (readNat cs).map fun n => (n : ℤ)
  match value with
  | some n => .ok n
  | none => .error ⟨.valueError, s!"invalid literal for int() with base 10: '{s}'"⟩

/-- `int(value)` of a JSON value. -/
def Json.toInt : Json → Except RuntimeException ℤ
  | bool b => .ok (if b then 1 else 0)
  | num q => .ok (if 0 ≤ q then q.floor else q.ceil)
  | str s => pyInt s
  | null | arr _ | obj _ => .error ⟨.typeError,
      "int() argument must be a string, a bytes-like object or a real number"⟩

theorem Json.toInt_num (n : ℤ) : (Json.num n).toInt = .ok n := by simp [Json.toInt]

theorem Json.toInt_num_orElse (n : ℤ) : ((Json.num n).orElse (.num 0)).toInt = .ok n := by
  by_cases hn : n = 0
  · subst hn
    rfl
  · rw [Json.orElse, if_pos (by simp [Json.truthy, hn]), toInt_num]

end OpenAgency
