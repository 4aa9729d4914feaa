/-!
# Permission bits

What the permission bits of a node let its owner do, and what becomes of them when a file is
written.  All nodes have the same owner, who is the one that asks.
-/

namespace PhotoTally

/-- The permission bits of a node: three rights each of its owner, its group and everyone else, and
three special bits in front of them. -/
abbrev Mode := Nat

/-- What can be allowed: to read a file or to list a folder, to write a file or to change the
entries of a folder, and to go through a folder. -/
inductive Right where
  | read
  | write
  | search
  deriving DecidableEq

namespace Mode

/-- The number of the bit that gives the owner a right. -/
def ownerBit : Right → Nat
  | .read => 8
  | .write => 7
  | .search => 6

/-- Whether the owner has a right. -/
def grants (m : Mode) (r : Right) : Bool := Nat.testBit m (ownerBit r)

/-- The number of the bit by which a program runs with its owner's rights. -/
def asOwner : Nat := 11

/-- The number of the bit by which a program runs with its group's rights, and which a folder hands
on to its subfolders. -/
def asGroup : Nat := 10

/-- The number of the bit by which the group may run a program. -/
def groupRuns : Nat := 3

/-- The bits without the `k`-th. -/
def without (m : Mode) (k : Nat) : Mode := if Nat.testBit m k then m ^^^ (1 <<< k) else m

@[simp] theorem testBit_without (m : Mode) (k j : Nat) :
    Nat.testBit (m.without k) j = (decide (j ≠ k) && Nat.testBit m j) := by
  have hone : Nat.testBit (1 <<< k) j = decide (j = k) := by
    rw [Nat.one_shiftLeft, Nat.testBit_two_pow]
    simp [eq_comm]
  unfold without
  by_cases hj : j = k
  · subst hj
    cases h : Nat.testBit m j <;> simp [h, hone]
  · split <;> simp [hone, hj]

/-- The bits of a file that has been written to: it no longer runs with the rights of its owner,
nor, if its group may run it, with those of its group. -/
def afterWrite (m : Mode) : Mode :=
  if Nat.testBit m groupRuns then (m.without asOwner).without asGroup else m.without asOwner

theorem testBit_afterWrite (m : Mode) (k : Nat) :
    Nat.testBit m.afterWrite k =
      (Nat.testBit m k && !(k = asOwner || (k = asGroup && Nat.testBit m groupRuns))) := by
  unfold afterWrite
  cases h : Nat.testBit m groupRuns <;> by_cases h₁ : k = asOwner <;> by_cases h₂ : k = asGroup <;>
    simp [h₁, h₂, Bool.and_comm]

/-- A write takes no right from the owner. -/
@[simp] theorem grants_afterWrite (m : Mode) (r : Right) : m.afterWrite.grants r = m.grants r := by
  cases r <;> simp [grants, ownerBit, testBit_afterWrite, asOwner, asGroup]

/-- A second write takes nothing more. -/
@[simp] theorem afterWrite_afterWrite (m : Mode) : m.afterWrite.afterWrite = m.afterWrite := by
  refine Nat.eq_of_testBit_eq fun k => ?_
  simp only [testBit_afterWrite, groupRuns, asOwner, asGroup]
  cases Nat.testBit m k <;> simp

/-- The bits of a new file. -/
def plainFile : Mode := 0o644

/-- The bits of a new folder. -/
def plainFolder : Mode := 0o755

/-- The bits of a new folder in a folder with the bits `m`. -/
def subfolder (m : Mode) : Mode := if Nat.testBit m asGroup then 0o2755 else plainFolder

/-- The bits in octal digits. -/
def octal (m : Mode) : String := String.ofList (Nat.toDigits 8 m)

end Mode

end PhotoTally
