import SearchQuery.Text.Ranges
set_option autoImplicit false

/-!
# Letters that are written together

Letters of some scripts take fewer columns together than apart. Here are the classes of letters,
those of Unicode 17.0; how they combine is a rule of shapes.
-/

namespace SearchQuery.Text

/-- The forms of the Arabic letter alef, by `Joining_Group`. -/
def alefRanges : List (Nat × Nat) :=
  [(0x622, 0x623), (0x625, 0x625), (0x627, 0x627), (0x671, 0x673), (0x675, 0x675), (0x773, 0x774),
    (0x870, 0x882)]

/-- The forms of the Arabic letter lam that join with an alef. -/
def lamRanges : List (Nat × Nat) :=
  [(0x644, 0x644), (0x6B5, 0x6B8), (0x76A, 0x76A), (0x8A6, 0x8A6), (0x8C7, 0x8C7)]

/-- The Khmer letters that can be written below another letter. -/
def khmerRanges : List (Nat × Nat) :=
  [(0x1780, 0x1782), (0x1784, 0x1787), (0x1789, 0x178C), (0x178E, 0x1793), (0x1795, 0x1798),
    (0x179B, 0x179D), (0x17A0, 0x17A0), (0x17A2, 0x17A2), (0x17A7, 0x17A7), (0x17AB, 0x17AC),
    (0x17AF, 0x17AF)]

def tifinaghRanges : List (Nat × Nat) :=
  [(0x2D31, 0x2D65), (0x2D6F, 0x2D6F)]

/-- The characters across which letters other than alef are written together. -/
def passedRanges : List (Nat × Nat) :=
  [(0x34F, 0x34F), (0x17B4, 0x17B5), (0x180B, 0x180D), (0x180F, 0x180F), (0x200D, 0x200D),
    (0xFE00, 0xFE0F), (0xE0100, 0xE01EF)]

def isAlef (character : Char) : Bool :=
  inRanges alefRanges character

def isLam (character : Char) : Bool :=
  inRanges lamRanges character

def isKhmerLetter (character : Char) : Bool :=
  inRanges khmerRanges character

def isTifinagh (character : Char) : Bool :=
  inRanges tifinaghRanges character

def isPassed (character : Char) : Bool :=
  inRanges passedRanges character

example : rangesAscend alefRanges = true ∧ rangesSize alefRanges = 29 := by decide

example : rangesAscend khmerRanges = true ∧ rangesSize khmerRanges = 30 := by decide

example : rangesAscend tifinaghRanges = true ∧ rangesSize tifinaghRanges = 54 := by decide

end SearchQuery.Text
