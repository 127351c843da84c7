import TreeFormat.Text.CharWidth

/-!
# Width of a character in a report

Reports keep to the widths of an earlier edition of the character database.  The
sets of characters that take no cell and that take two cells have been revised
since; `gridWidth` takes the revisions back.
-/

namespace TreeFormat.Text

/-- The characters that are only in one of the two editions of `zeroWidth`. -/
def revisedZeroWidth : CharSet where
  changes := [
    0x5C8, 0x5CA, 0x897, 0x898, 0xB53, 0xB55, 0x1715, 0x1716, 0x1734, 0x1735, 0x1ACF, 0x1AF1,
    0x1B44, 0x1B45, 0x1BAA, 0x1BAB, 0x1BF2, 0x1BF4, 0xA953, 0xA954, 0xA9C0, 0xA9C1, 0xFF9E, 0xFFA0,
    0x10D69, 0x10D6E, 0x10ECB, 0x10ED0, 0x10EF0, 0x10EFD, 0x111C0, 0x111C1, 0x11235, 0x11236,
    0x1134D, 0x1134E, 0x113B8, 0x113B9, 0x113BB, 0x113C1, 0x113C2, 0x113C3, 0x113C5, 0x113C6,
    0x113C7, 0x113CA, 0x113CE, 0x113D3, 0x113E1, 0x113E3, 0x116B6, 0x116B7, 0x1171E, 0x1171F,
    0x1193D, 0x1193E, 0x11A3A, 0x11A3B, 0x11B60, 0x11B61, 0x11B62, 0x11B65, 0x11B66, 0x11B67,
    0x11DF0, 0x11DF1, 0x11F41, 0x11F42, 0x11F5A, 0x11F5B, 0x1611E, 0x1612A, 0x1612D, 0x16130,
    0x16FF0, 0x16FF2, 0x1D127, 0x1D129, 0x1D166, 0x1D167, 0x1D16D, 0x1D16E, 0x1D250, 0x1D253,
    0x1D25B, 0x1D25D, 0x1D25F, 0x1D260, 0x1D280, 0x1D282, 0x1E5EE, 0x1E5F0, 0x1E6E3, 0x1E6E4,
    0x1E6E6, 0x1E6E7, 0x1E6EE, 0x1E6F0, 0x1E6F5, 0x1E6F6]

/-- The characters that are only in one of the two editions of `doubleWidth`. -/
def revisedDoubleWidth : CharSet where
  changes := [
    0x2630, 0x2638, 0x268A, 0x2690, 0x31E4, 0x31E6, 0x4DC0, 0x4E00, 0x16FF0, 0x16FF7, 0x187F8,
    0x18800, 0x18CD6, 0x18CDB, 0x18CFF, 0x18D00, 0x18D09, 0x18D21, 0x18D80, 0x18DF3, 0x18E00,
    0x19192, 0x191A0, 0x191D3, 0x1B123, 0x1B129, 0x1B168, 0x1B169, 0x1D300, 0x1D357, 0x1D360,
    0x1D377, 0x1F1AE, 0x1F1AF, 0x1F6D8, 0x1F6DA, 0x1F7DA, 0x1F7DB, 0x1FA89, 0x1FA90, 0x1FABE,
    0x1FABF, 0x1FAC6, 0x1FAC7, 0x1FAC8, 0x1FAC9, 0x1FACC, 0x1FACE, 0x1FADC, 0x1FADE, 0x1FADF,
    0x1FAE0, 0x1FAE9, 0x1FAEC, 0x1FAEF, 0x1FAF0, 0x1FAF9, 0x1FAFB]

/-- The number of cells of a character in a report. -/
def gridWidth (c : Char) : Nat :=
  if c.toNat < 0xA1 then 1
  else if c.toNat == 0x17D8 then 3
  else if zeroWidth.contains c != revisedZeroWidth.contains c then 0
  else if doubleWidth.contains c != revisedDoubleWidth.contains c then 2
  else 1

end TreeFormat.Text
