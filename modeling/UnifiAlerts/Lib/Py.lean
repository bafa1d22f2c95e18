import Mathlib.Data.Rat.Floor

/-!
# Python values

The part of Python that a program handling decoded JSON rests on: the
values `json.loads` produces, their truth value, dictionary lookup,
`str()` and `int()`, the exceptions these raise, and `datetime` with its
naive/aware distinction. Each definition carries the name of the builtin
it stands for (`slice s n` is `s[:n]`, `or a b` is `a or b`).

A string is read through its list of code points, which is what slicing,
`strip` and prefix tests see. Numbers are exact: a finite float is the
rational it denotes. What `str()` prints for a float or a container and
the ISO text of a timestamp are left to the interpreter (`Text`); every
statement over them holds for all such texts.
-/

namespace Py

inductive Exc
  | typeError
  | valueError
  | attributeError
  | indexError
  | overflowError
deriving Repr, DecidableEq

/-- A sequence of steps succeeds exactly when each of them does. -/
theorem bind_eq_ok {ε α β : Type} {x : Except ε α} {f : α → Except ε β} {b : β} :
    (x >>= f) = .ok b ↔ ∃ a, x = .ok a ∧ f a = .ok b := by
  cases x with
  | ok a => exact ⟨fun h => ⟨a, rfl, h⟩, fun ⟨_, h, hf⟩ => Except.ok.inj h ▸ hf⟩
  | error e => exact ⟨fun h => (nomatch h), fun ⟨_, h, _⟩ => (nomatch h)⟩

/-! ## Strings -/

def spaceChars : List Nat :=
  [0x9, 0xA, 0xB, 0xC, 0xD, 0x1C, 0x1D, 0x1E, 0x1F, 0x20, 0x85, 0xA0, 0x1680, 0x2000, 0x2001,
   0x2002, 0x2003, 0x2004, 0x2005, 0x2006, 0x2007, 0x2008, 0x2009, 0x200A, 0x2028, 0x2029,
   0x202F, 0x205F, 0x3000]

def isSpace (c : Char) : Bool := spaceChars.contains c.toNat

/-- The code points of decimal digit zero; each starts a block of ten. -/
def digitZeros : List Nat :=
  [0x30, 0x660, 0x6F0, 0x7C0, 0x966, 0x9E6, 0xA66, 0xAE6, 0xB66, 0xBE6, 0xC66, 0xCE6, 0xD66,
   0xDE6, 0xE50, 0xED0, 0xF20, 0x1040, 0x1090, 0x17E0, 0x1810, 0x1946, 0x19D0, 0x1A80, 0x1A90,
   0x1B50, 0x1BB0, 0x1C40, 0x1C50, 0xA620, 0xA8D0, 0xA900, 0xA9D0, 0xA9F0, 0xAA50, 0xABF0,
   0xFF10, 0x104A0, 0x10D30, 0x10D40, 0x11066, 0x110F0, 0x11136, 0x111D0, 0x112F0, 0x11450,
   0x114D0, 0x11650, 0x116C0, 0x116D0, 0x116DA, 0x11730, 0x118E0, 0x11950, 0x11BF0, 0x11C50,
   0x11D50, 0x11DA0, 0x11F50, 0x16130, 0x16A60, 0x16AC0, 0x16B50, 0x16D70, 0x1CCF0, 0x1D7CE,
   0x1D7D8, 0x1D7E2, 0x1D7EC, 0x1D7F6, 0x1E140, 0x1E2F0, 0x1E4F0, 0x1E5F1, 0x1E950, 0x1FBF0]

/-- The value of a decimal digit of any script, as `int()` and `\d` read it. -/
def digitValue (c : Char) : Option Nat :=
  (digitZeros.find? fun z => z ≤ c.toNat && c.toNat < z + 10).map (c.toNat - ·)

def stripBy (space : Char → Bool) (s : String) : String :=
  String.ofList (((s.toList.dropWhile space).reverse.dropWhile space).reverse)

def strip (s : String) : String := stripBy isSpace s

/-- `s.lower()` on the letters the callers compare with: no other code point
lowers to one of them. -/
def lower (s : String) : String := String.ofList (s.toList.map Char.toLower)

def slice (s : String) (n : Nat) : String := String.ofList (s.toList.take n)

def startsWith (s p : String) : Bool := p.toList.isPrefixOf s.toList

theorem slice_toList (s : String) (n : Nat) : (slice s n).toList = s.toList.take n := by
  simp [slice]

theorem slice_slice (s : String) (n : Nat) : slice (slice s n) n = slice s n := by
  rw [slice, slice_toList, List.take_take, Nat.min_self, slice]

def digitsValue : Bool → Nat → List Char → Option Nat
  | true, acc, [] => some acc
  | false, _, [] => none
  | true, acc, '_' :: cs => digitsValue false acc cs
  | _, acc, c :: cs => (digitValue c).bind fun d => digitsValue true (acc * 10 + d) cs

/-- The interpreter refuses longer digit strings (`sys.int_info`). -/
def maxStrDigits : Nat := 4300

/-- The white space around a number that `int()` skips. `str.strip()` also removes
U+001C to U+001F, on which `int()` raises ValueError. -/
def isIntSpace (c : Char) : Bool := isSpace c && !(0x1C ≤ c.toNat && c.toNat ≤ 0x1F)

/-- `int(s)`; `none` is its ValueError. -/
def intOfStr (s : String) : Option Int :=
  let cs := (stripBy isIntSpace s).toList
  if maxStrDigits < (cs.filter fun c => (digitValue c).isSome).length then none
  else match cs with
    | '-' :: cs => (digitsValue false 0 cs).map fun n => -(n : Int)
    | '+' :: cs => (digitsValue false 0 cs).map fun n => (n : Int)
    | cs => (digitsValue false 0 cs).map fun n => (n : Int)

example : intOfStr "\u00a0-1_0\n" = some (-10) ∧ intOfStr "\u001f7" = none := by decide +kernel

/-! ## Values -/

inductive Float
  | finite (q : ℚ)
  | infinity (negative : Bool)
  | nan

inductive Json
  | null
  | bool (b : Bool)
  | int (n : Int)
  | float (x : Float)
  | str (s : String)
  | arr (xs : List Json)
  | obj (kvs : List (String × Json))

abbrev JsonObj := List (String × Json)

namespace Json

def truthy : Json → Bool
  | .null => false
  | .bool b => b
  | .int n => n != 0
  | .float (.finite q) => q != 0
  | .float _ => true
  | .str s => s != ""
  | .arr xs => !xs.isEmpty
  | .obj kvs => !kvs.isEmpty

def or (a b : Json) : Json := if a.truthy then a else b

/-- `v.get`: only a dictionary has it. -/
def asDict : Json → Except Exc JsonObj
  | .obj kvs => .ok kvs
  | _ => .error .attributeError

/-- `for x in v`: a list yields its items, a string its characters, a
dictionary its keys. -/
def iter : Json → Except Exc (List Json)
  | .arr xs => .ok xs
  | .str s => .ok (s.toList.map fun c => .str c.toString)
  | .obj kvs => .ok (kvs.map fun kv => .str kv.1)
  | _ => .error .typeError

def hashable : Json → Bool
  | .arr _ => false
  | .obj _ => false
  | _ => true

def toInt : Json → Except Exc Int
  | .int n => .ok n
  | .bool b => .ok (if b then 1 else 0)
  | .float (.finite q) => .ok (if 0 ≤ q then ⌊q⌋ else ⌈q⌉)
  | .float (.infinity _) => .error .overflowError
  | .float .nan => .error .valueError
  | .str s => match intOfStr s with
    | some n => .ok n
    | none => .error .valueError
  | _ => .error .typeError

def isStr : Json → Bool
  | .str _ => true
  | _ => false

def isObj : Json → Bool
  | .obj _ => true
  | _ => false

def isInfinity : Json → Bool
  | .float (.infinity _) => true
  | _ => false

theorem toInt_overflow_iff {v : Json} : v.toInt = .error .overflowError ↔ v.isInfinity = true := by
  cases v with
  | float x => cases x <;> simp [toInt, isInfinity]
  | str s =>
      unfold toInt isInfinity
      dsimp only
      cases intOfStr s <;> simp
  | _ => simp [toInt, isInfinity]

theorem toInt_error {v : Json} {e : Exc} (h : v.toInt = .error e) :
    e = .valueError ∨ e = .typeError ∨ e = .overflowError := by
  cases v with
  | float x =>
      cases x with
      | finite q => cases h
      | infinity negative => exact Or.inr (Or.inr (Except.error.inj h).symm)
      | nan => exact Or.inl (Except.error.inj h).symm
  | str s =>
      unfold toInt at h
      dsimp only at h
      split at h
      · cases h
      · exact Or.inl (Except.error.inj h).symm
  | int n => cases h
  | bool b => cases h
  | _ => exact Or.inr (Or.inl (Except.error.inj h).symm)

end Json

def JsonObj.getD (o : JsonObj) (k : String) (default : Json) : Json := (o.lookup k).getD default

def JsonObj.get (o : JsonObj) (k : String) : Json := JsonObj.getD o k .null

/-! ## Timestamps -/

/-- An aware timestamp: microseconds since the epoch, in UTC. -/
abbrev Instant := Int

/-- A `datetime`. A naive one has a wall clock and no offset. -/
inductive DateTime
  | naive (wall : Int)
  | aware (utc : Instant)
deriving Repr, DecidableEq

namespace DateTime

def isAware : DateTime → Bool
  | .naive _ => false
  | .aware _ => true

/-- The instant denoted, a naive one being read as UTC. -/
def instant : DateTime → Instant
  | .naive w => w
  | .aware u => u

/-- `a > b`: comparing a naive with an aware datetime raises TypeError. -/
def gt : DateTime → DateTime → Except Exc Bool
  | .aware a, .aware b => .ok (decide (b < a))
  | .naive a, .naive b => .ok (decide (b < a))
  | _, _ => .error .typeError

@[simp] theorem instant_aware (u : Instant) : (DateTime.aware u).instant = u := rfl

theorem isAware_iff {d : DateTime} : d.isAware = true ↔ d = .aware d.instant := by
  cases d <;> simp [isAware, instant]

/-- Two datetimes compare exactly when both are aware or both are naive. -/
theorem gt_eq {a b : DateTime} (h : a.isAware = b.isAware) :
    a.gt b = .ok (decide (b.instant < a.instant)) := by
  cases a <;> cases b <;> first | rfl | cases h

theorem gt_ne {a b : DateTime} (h : a.isAware ≠ b.isAware) : a.gt b = .error .typeError := by
  cases a <;> cases b <;> first | rfl | exact absurd rfl h

/-- `a + timedelta(microseconds=delta)`. -/
def add (delta : Int) : DateTime → DateTime
  | .naive w => .naive (w + delta)
  | .aware u => .aware (u + delta)

@[simp] theorem instant_add (delta : Int) (a : DateTime) :
    (a.add delta).instant = a.instant + delta := by
  cases a <;> rfl

@[simp] theorem isAware_add (delta : Int) (a : DateTime) : (a.add delta).isAware = a.isAware := by
  cases a <;> rfl

/-- Moving both sides leaves a comparison as it is. -/
theorem gt_add (delta : Int) (a b : DateTime) : (a.add delta).gt (b.add delta) = a.gt b := by
  cases a <;> cases b <;> simp [add, gt]

end DateTime

def minEpochMs : Int := -62135596800000
def maxEpochMs : Int := 253402300800000

/-- `datetime.fromtimestamp(ms / 1000, tz=UTC)`; `none` is the error for a year
out of range. -/
def fromTimestampMs (ms : Int) : Option DateTime :=
  if minEpochMs ≤ ms ∧ ms < maxEpochMs then some (.aware (ms * 1000)) else none

def hours (h : Int) : Int := h * 3600 * 1000000

/-- `int(dt.timestamp() * 1000)`: epoch milliseconds, towards zero. -/
def epochMs (t : Instant) : Int := t.tdiv 1000

theorem epochMs_mono {s t : Instant} (h : s ≤ t) : epochMs s ≤ epochMs t :=
  Int.tdiv_le_tdiv (by decide) h

structure Text where
  /-- `str(v)` of a float, a list or a dictionary. -/
  strOther : Json → String
  isoformat : DateTime → String
  /-- `datetime.fromisoformat`; `none` is its ValueError. -/
  fromisoformat : String → Option DateTime
  fromisoformat_isoformat : ∀ d, fromisoformat (isoformat d) = some d

def Text.str (text : Text) : Json → String
  | .str s => s
  | .null => "None"
  | .bool true => "True"
  | .bool false => "False"
  | .int n => toString n
  | v => text.strOther v

@[simp] theorem Text.str_str (text : Text) (s : String) : text.str (.str s) = s := rfl

def intDigits (n : Int) : List Char := (if n < 0 then '-' else '+') :: Nat.toDigits 10 n.natAbs

def readDigits : List Char → Option Int
  | '-' :: cs => some (-(Nat.ofDigitChars 10 cs 0 : Int))
  | '+' :: cs => some (Nat.ofDigitChars 10 cs 0 : Int)
  | _ => none

theorem readDigits_intDigits (n : Int) : readDigits (intDigits n) = some n := by
  unfold intDigits
  split <;>
    · simp only [readDigits, Nat.ofDigitChars_ten_toDigits]
      congr 1
      omega

/-- An interpreter for evaluating examples: a timestamp prints as its kind and
its count of microseconds, and every other text is read by `iso`. -/
def Text.counting (iso : String → Option DateTime) : Text where
  strOther _ := ""
  isoformat
    | .naive w => String.ofList ('n' :: intDigits w)
    | .aware u => String.ofList ('a' :: intDigits u)
  fromisoformat s :=
    match s.toList with
    | 'n' :: cs => (readDigits cs).map .naive
    | 'a' :: cs => (readDigits cs).map .aware
    | _ => iso s
  fromisoformat_isoformat d := by
    cases d <;> simp [readDigits_intDigits]

/-! ## `max` with a timestamp key -/

/-- `max(x :: xs, key=key)`: the first item no later item exceeds. -/
def maxBy {α : Type} (key : α → DateTime) : α → List α → Except Exc α
  | best, [] => .ok best
  | best, x :: xs => do
    if ← (key x).gt (key best) then maxBy key x xs else maxBy key best xs

/-- What `max` returns is one of the items. -/
theorem maxBy_mem {α : Type} {key : α → DateTime} :
    ∀ {xs : List α} {best m : α}, maxBy key best xs = .ok m → m ∈ best :: xs
  | [], best, m, h => by
      obtain rfl := Except.ok.inj h
      exact List.mem_singleton.mpr rfl
  | x :: xs, best, m, h => by
      obtain ⟨later, -, h⟩ := bind_eq_ok.mp h
      cases later with
      | true => exact List.mem_cons_of_mem _ (maxBy_mem h)
      | false =>
          rcases List.mem_cons.mp (maxBy_mem h) with rfl | hm
          · exact List.mem_cons_self
          · exact List.mem_cons_of_mem _ (List.mem_cons_of_mem _ hm)

/-- Over aware timestamps `max` succeeds and returns an item that no other
exceeds. -/
theorem maxBy_aware {α : Type} {key : α → DateTime} :
    ∀ {xs : List α} {best : α}, (∀ x ∈ best :: xs, (key x).isAware = true) →
      ∃ m, maxBy key best xs = .ok m ∧ m ∈ best :: xs
        ∧ ∀ x ∈ best :: xs, (key x).instant ≤ (key m).instant
  | [], best, _ => ⟨best, rfl, by simp, by simp⟩
  | x :: xs, best, h => by
      have hgt : (key x).gt (key best) = .ok (decide ((key best).instant < (key x).instant)) :=
        DateTime.gt_eq (by rw [h x (by simp), h best (by simp)])
      by_cases hlt : (key best).instant < (key x).instant
      · obtain ⟨m, hm, hmem, hmax⟩ := @maxBy_aware _ key xs x
          (fun y hy => h y (List.mem_cons_of_mem _ hy))
        refine ⟨m, ?_, List.mem_cons_of_mem _ hmem, ?_⟩
        · simp [maxBy, hgt, hlt, hm, bind, Except.bind]
        · intro y hy
          rcases List.mem_cons.mp hy with rfl | hy
          · exact (Int.le_of_lt hlt).trans (hmax x (by simp))
          · exact hmax y hy
      · obtain ⟨m, hm, hmem, hmax⟩ := @maxBy_aware _ key xs best
          (fun y hy => h y (by
            rcases List.mem_cons.mp hy with rfl | hy
            · simp
            · simp [hy]))
        refine ⟨m, ?_, ?_, ?_⟩
        · simp [maxBy, hgt, hlt, hm, bind, Except.bind]
        · rcases List.mem_cons.mp hmem with rfl | hmem
          · simp
          · simp [hmem]
        · intro y hy
          rcases List.mem_cons.mp hy with rfl | hy
          · exact hmax y (by simp)
          · rcases List.mem_cons.mp hy with rfl | hy
            · exact (not_lt.mp hlt).trans (hmax best (by simp))
            · exact hmax y (by simp [hy])

/-- `max` raises exactly when an aware and a naive timestamp meet. -/
theorem maxBy_ok_iff {α : Type} {key : α → DateTime} : ∀ {xs : List α} {best : α},
    (∃ m, maxBy key best xs = .ok m) ↔ ∀ x ∈ xs, (key x).isAware = (key best).isAware
  | [], best => iff_of_true ⟨best, rfl⟩ (by simp)
  | x :: xs, best => by
      rw [List.forall_mem_cons]
      by_cases hx : (key x).isAware = (key best).isAware
      · have hstep : maxBy key best (x :: xs) =
            if (key best).instant < (key x).instant then maxBy key x xs
            else maxBy key best xs := by
          rw [maxBy, DateTime.gt_eq hx]
          simp [bind, Except.bind]
        rw [hstep]
        split
        · rw [maxBy_ok_iff, hx]
          simp
        · rw [maxBy_ok_iff]
          simp [hx]
      · refine iff_of_false ?_ fun h => hx h.1
        rintro ⟨m, h⟩
        obtain ⟨later, hlater, -⟩ := bind_eq_ok.mp h
        rw [DateTime.gt_ne hx] at hlater
        cases hlater

end Py
