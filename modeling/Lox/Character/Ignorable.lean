import Lox.Character.Ranges
/-! Characters that are shown as nothing wherever they are not known: fillers of a
syllable, joiners, marks of direction, tags, and the places kept free for more of them.
Some of them are letters, so no other class of characters holds them all. -/

namespace Lox.Character

/-- Code points of the property Default_Ignorable_Code_Point. -/
def ignorable : Ranges :=
  [(0xad, 0xad), (0x34f, 0x34f), (0x61c, 0x61c), (0x115f, 0x1160), (0x17b4, 0x17b5),
   (0x180b, 0x180f), (0x200b, 0x200f), (0x202a, 0x202e), (0x2060, 0x206f), (0x3164, 0x3164),
   (0xfe00, 0xfe0f), (0xfeff, 0xfeff), (0xffa0, 0xffa0), (0xfff0, 0xfff8), (0x1bca0, 0x1bca3),
   (0x1d173, 0x1d17a), (0xe0000, 0xe0fff)]

example : ignorable.isAscending := by decide +kernel

example : ignorable.size = 4174 := by decide +kernel

/-- The fillers of a syllable are letters that show nothing. -/
example : [0x115f, 0x1160, 0x3164, 0xffa0].all ignorable.covers := by decide +kernel

/-- The letters next to them can be seen. -/
example : [0x115e, 0x1161, 0x3163, 0x3165, 0xffa1].all (!ignorable.covers ·) := by
  decide +kernel

end Lox.Character
