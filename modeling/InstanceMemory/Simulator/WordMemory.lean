import Std.Data.TreeMap.Lemmas

/-!
# Word memory

Memory without bounds, addressed by words, in which every word is zero until it is written. It is
kept in blocks, and a block that was never written takes no room.

`read_write` says all there is to know: a word reads as what was written to it last, and a write
leaves every other word alone.
-/

set_option autoImplicit false

namespace InstanceMemory.Simulator

/-- The words of a block. -/
abbrev Block := Vector UInt32 1024

/-- Words by their number. -/
structure WordMemory where
  blocks : Std.TreeMap Nat Block

namespace WordMemory

/-- Memory in which every word is zero. -/
def zero : WordMemory := ⟨∅⟩

/-- A block of zeros. -/
def zeroBlock : Block := Vector.replicate 1024 0

/-- The word of a number. -/
def read (memory : WordMemory) (word : Nat) : UInt32 :=
  match memory.blocks[word / 1024]? with
  | none => 0
  | some block => block[word % 1024]

/-- The block with one word changed; a missing block is zero. -/
def changeBlock (word : Nat) (value : UInt32) (block : Option Block) : Option Block :=
  some ((block.getD zeroBlock).set (word % 1024) value)

/-- The memory with one word changed. -/
def write (memory : WordMemory) (word : Nat) (value : UInt32) : WordMemory :=
  ⟨memory.blocks.alter (word / 1024) (changeBlock word value)⟩

/-! ## Reading what was written -/

/-- The word a block holds, where a missing block holds zeros. -/
def wordIn (block : Option Block) (word : Nat) : UInt32 := (block.getD zeroBlock)[word % 1024]

theorem read_eq_wordIn (memory : WordMemory) (word : Nat) :
    memory.read word = wordIn memory.blocks[word / 1024]? word := by
  unfold read wordIn
  cases memory.blocks[word / 1024]? with
  | none => simp [zeroBlock]
  | some block => rfl

theorem wordIn_changeBlock (block : Option Block) (word other : Nat) (value : UInt32) :
    wordIn (changeBlock word value block) other =
      if word % 1024 = other % 1024 then value else wordIn block other := by
  simp only [wordIn, changeBlock, Option.getD_some, Vector.getElem_set]

/-- Untouched memory reads as zero. -/
theorem read_zero (word : Nat) : zero.read word = 0 := by
  simp [read, zero]

/-- **A word reads as what was written to it last**, and no other word is changed. -/
theorem read_write (memory : WordMemory) (word other : Nat) (value : UInt32) :
    (memory.write word value).read other = if other = word then value else memory.read other := by
  rw [read_eq_wordIn, read_eq_wordIn]
  simp only [write, Std.TreeMap.getElem?_alter, Nat.compare_eq_eq]
  by_cases hblock : word / 1024 = other / 1024
  · rw [if_pos hblock, wordIn_changeBlock, hblock]
    congr 1
    simp only [eq_iff_iff]
    omega
  · rw [if_neg hblock, if_neg (by omega)]

end WordMemory
end InstanceMemory.Simulator
