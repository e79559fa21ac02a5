import Mathlib

/-! # Utilities

The rolling average of `internal/math` and the container names of `internal/utils`. -/

namespace Formicary

/-- A `RollingAverage`. The ring `samples` is written at `index`. -/
structure RollingAverage where
  samples : List Int64
  total : Int64
  index : ℕ
  length : ℕ
  deriving DecidableEq

namespace RollingAverage

def newRollingAverage (capacity : ℕ) : RollingAverage where
  samples := .replicate capacity 0
  total := 0
  index := 0
  length := 0

/-- `Add`. The source panics at a positive sample if there is no capacity. -/
def add (r : RollingAverage) (x : Int64) : RollingAverage :=
  if x ≤ 0 then r
  else
    { length := if r.length < r.samples.length then r.length + 1 else r.length
      total := r.total + -(r.samples.getD r.index 0) + x
      samples := r.samples.set r.index x
      index := if r.index + 1 ≥ r.samples.length then 0 else r.index + 1 }

/-- `Average`, by the division of floating point numbers. -/
def average {α : Type} (divide : Int64 → ℕ → α) (r : RollingAverage) : α :=
  divide r.total (max 1 (min r.samples.length r.length))

end RollingAverage

namespace Utils

def isAlphanumeric (c : Char) : Bool :=
  ('a' ≤ c && c ≤ 'z') || ('0' ≤ c && c ≤ '9')

/-- `unicode.ToLower`, which leaves the characters of a name alone. -/
structure Lowering where
  lower : Char → Char
  lower_eq : ∀ c, c = '-' ∨ isAlphanumeric c = true → lower c = c

def dns1123NameMaximumLength : ℕ := 63

def makeDNS1123Compatible (m : Lowering) (name : String) : String :=
  let name := name.toList.map m.lower
  let name := name.map fun c => if c = '_' then '-' else c
  -- without the characters that are not allowed, then without those not allowed at the start
  let name := name.filter fun c => c == '-' || isAlphanumeric c
  let name := name.dropWhile fun c => !isAlphanumeric c
  String.ofList
    (if name.length > dns1123NameMaximumLength then name.take dns1123NameMaximumLength else name)

end Utils

end Formicary
