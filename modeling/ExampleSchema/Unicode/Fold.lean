/-!
# Case folding

Characters that differ only in case fold to one another.  Almost all of them come in pairs, and the
pairs in runs: `FoldRun` is a run of pairs with one distance between their two characters.  The few
larger groups are listed one by one.
-/

namespace ExampleSchema
namespace Unicode

/-- Some pairs of characters: the first pair, how many pairs there are, and how far each is from the
one before it. -/
structure FoldRun where
  first : Nat
  second : Nat
  count : Nat
  stride : Nat
  deriving Repr, DecidableEq

/-- The pairs of a run. -/
def FoldRun.groups (r : FoldRun) : List (List Nat) :=
  (List.range r.count).map fun k => [r.first + r.stride * k, r.second + r.stride * k]

/-- The pairs of characters that fold to one another. -/
def foldRuns : List FoldRun := [
  ⟨0x41, 0x61, 10, 1⟩, ⟨0x4C, 0x6C, 7, 1⟩, ⟨0x54, 0x74, 7, 1⟩, ⟨0xC0, 0xE0, 5, 1⟩,
  ⟨0xC6, 0xE6, 17, 1⟩, ⟨0xD8, 0xF8, 7, 1⟩, ⟨0xDF, 0x1E9E, 1, 1⟩, ⟨0xFF, 0x178, 1, 1⟩,
  ⟨0x100, 0x101, 24, 2⟩, ⟨0x132, 0x133, 3, 2⟩, ⟨0x139, 0x13A, 8, 2⟩, ⟨0x14A, 0x14B, 23, 2⟩,
  ⟨0x179, 0x17A, 3, 2⟩, ⟨0x180, 0x243, 1, 1⟩, ⟨0x181, 0x253, 1, 1⟩, ⟨0x182, 0x183, 2, 2⟩,
  ⟨0x186, 0x254, 1, 1⟩, ⟨0x187, 0x188, 1, 1⟩, ⟨0x189, 0x256, 2, 1⟩, ⟨0x18B, 0x18C, 1, 1⟩,
  ⟨0x18E, 0x1DD, 1, 1⟩, ⟨0x18F, 0x259, 1, 1⟩, ⟨0x190, 0x25B, 1, 1⟩, ⟨0x191, 0x192, 1, 1⟩,
  ⟨0x193, 0x260, 1, 1⟩, ⟨0x194, 0x263, 1, 1⟩, ⟨0x195, 0x1F6, 1, 1⟩, ⟨0x196, 0x269, 1, 1⟩,
  ⟨0x197, 0x268, 1, 1⟩, ⟨0x198, 0x199, 1, 1⟩, ⟨0x19A, 0x23D, 1, 1⟩, ⟨0x19B, 0xA7DC, 1, 1⟩,
  ⟨0x19C, 0x26F, 1, 1⟩, ⟨0x19D, 0x272, 1, 1⟩, ⟨0x19E, 0x220, 1, 1⟩, ⟨0x19F, 0x275, 1, 1⟩,
  ⟨0x1A0, 0x1A1, 3, 2⟩, ⟨0x1A6, 0x280, 1, 1⟩, ⟨0x1A7, 0x1A8, 1, 1⟩, ⟨0x1A9, 0x283, 1, 1⟩,
  ⟨0x1AC, 0x1AD, 1, 1⟩, ⟨0x1AE, 0x288, 1, 1⟩, ⟨0x1AF, 0x1B0, 1, 1⟩, ⟨0x1B1, 0x28A, 2, 1⟩,
  ⟨0x1B3, 0x1B4, 2, 2⟩, ⟨0x1B7, 0x292, 1, 1⟩, ⟨0x1B8, 0x1B9, 1, 1⟩, ⟨0x1BC, 0x1BD, 1, 1⟩,
  ⟨0x1BF, 0x1F7, 1, 1⟩, ⟨0x1CD, 0x1CE, 8, 2⟩, ⟨0x1DE, 0x1DF, 9, 2⟩, ⟨0x1F4, 0x1F5, 1, 1⟩,
  ⟨0x1F8, 0x1F9, 20, 2⟩, ⟨0x222, 0x223, 9, 2⟩, ⟨0x23A, 0x2C65, 1, 1⟩, ⟨0x23B, 0x23C, 1, 1⟩,
  ⟨0x23E, 0x2C66, 1, 1⟩, ⟨0x23F, 0x2C7E, 2, 1⟩, ⟨0x241, 0x242, 1, 1⟩, ⟨0x244, 0x289, 1, 1⟩,
  ⟨0x245, 0x28C, 1, 1⟩, ⟨0x246, 0x247, 5, 2⟩, ⟨0x250, 0x2C6F, 1, 1⟩, ⟨0x251, 0x2C6D, 1, 1⟩,
  ⟨0x252, 0x2C70, 1, 1⟩, ⟨0x25C, 0xA7AB, 1, 1⟩, ⟨0x261, 0xA7AC, 1, 1⟩, ⟨0x264, 0xA7CB, 1, 1⟩,
  ⟨0x265, 0xA78D, 1, 1⟩, ⟨0x266, 0xA7AA, 1, 1⟩, ⟨0x26A, 0xA7AE, 1, 1⟩, ⟨0x26B, 0x2C62, 1, 1⟩,
  ⟨0x26C, 0xA7AD, 1, 1⟩, ⟨0x271, 0x2C6E, 1, 1⟩, ⟨0x27D, 0x2C64, 1, 1⟩, ⟨0x282, 0xA7C5, 1, 1⟩,
  ⟨0x287, 0xA7B1, 1, 1⟩, ⟨0x29D, 0xA7B2, 1, 1⟩, ⟨0x29E, 0xA7B0, 1, 1⟩, ⟨0x370, 0x371, 2, 2⟩,
  ⟨0x376, 0x377, 1, 1⟩, ⟨0x37B, 0x3FD, 3, 1⟩, ⟨0x37F, 0x3F3, 1, 1⟩, ⟨0x386, 0x3AC, 1, 1⟩,
  ⟨0x388, 0x3AD, 3, 1⟩, ⟨0x38C, 0x3CC, 1, 1⟩, ⟨0x38E, 0x3CD, 2, 1⟩, ⟨0x390, 0x1FD3, 1, 1⟩,
  ⟨0x391, 0x3B1, 2, 2⟩, ⟨0x394, 0x3B4, 2, 2⟩, ⟨0x397, 0x3B7, 1, 1⟩, ⟨0x39B, 0x3BB, 3, 2⟩,
  ⟨0x39E, 0x3BE, 1, 1⟩, ⟨0x3A4, 0x3C4, 2, 1⟩, ⟨0x3A7, 0x3C7, 2, 1⟩, ⟨0x3AA, 0x3CA, 2, 1⟩,
  ⟨0x3B0, 0x1FE3, 1, 1⟩, ⟨0x3CF, 0x3D7, 1, 1⟩, ⟨0x3D8, 0x3D9, 12, 2⟩, ⟨0x3F2, 0x3F9, 1, 1⟩,
  ⟨0x3F7, 0x3F8, 1, 1⟩, ⟨0x3FA, 0x3FB, 1, 1⟩, ⟨0x400, 0x450, 16, 1⟩, ⟨0x410, 0x430, 2, 1⟩,
  ⟨0x413, 0x433, 7, 2⟩, ⟨0x416, 0x436, 4, 2⟩, ⟨0x420, 0x440, 1, 1⟩, ⟨0x423, 0x443, 7, 1⟩,
  ⟨0x42B, 0x44B, 5, 1⟩, ⟨0x460, 0x461, 1, 1⟩, ⟨0x464, 0x465, 15, 2⟩, ⟨0x48A, 0x48B, 27, 2⟩,
  ⟨0x4C0, 0x4CF, 1, 1⟩, ⟨0x4C1, 0x4C2, 7, 2⟩, ⟨0x4D0, 0x4D1, 48, 2⟩, ⟨0x531, 0x561, 38, 1⟩,
  ⟨0x10A0, 0x2D00, 38, 1⟩, ⟨0x10C7, 0x2D27, 1, 1⟩, ⟨0x10CD, 0x2D2D, 1, 1⟩,
  ⟨0x10D0, 0x1C90, 43, 1⟩, ⟨0x10FD, 0x1CBD, 3, 1⟩, ⟨0x13A0, 0xAB70, 80, 1⟩,
  ⟨0x13F0, 0x13F8, 6, 1⟩, ⟨0x1C89, 0x1C8A, 1, 1⟩, ⟨0x1D79, 0xA77D, 1, 1⟩, ⟨0x1D7D, 0x2C63, 1, 1⟩,
  ⟨0x1D8E, 0xA7C6, 1, 1⟩, ⟨0x1E00, 0x1E01, 48, 2⟩, ⟨0x1E62, 0x1E63, 26, 2⟩,
  ⟨0x1EA0, 0x1EA1, 48, 2⟩, ⟨0x1F00, 0x1F08, 8, 1⟩, ⟨0x1F10, 0x1F18, 6, 1⟩, ⟨0x1F20, 0x1F28, 8, 1⟩,
  ⟨0x1F30, 0x1F38, 8, 1⟩, ⟨0x1F40, 0x1F48, 6, 1⟩, ⟨0x1F51, 0x1F59, 4, 2⟩, ⟨0x1F60, 0x1F68, 8, 1⟩,
  ⟨0x1F70, 0x1FBA, 2, 1⟩, ⟨0x1F72, 0x1FC8, 4, 1⟩, ⟨0x1F76, 0x1FDA, 2, 1⟩, ⟨0x1F78, 0x1FF8, 2, 1⟩,
  ⟨0x1F7A, 0x1FEA, 2, 1⟩, ⟨0x1F7C, 0x1FFA, 2, 1⟩, ⟨0x1F80, 0x1F88, 8, 1⟩, ⟨0x1F90, 0x1F98, 8, 1⟩,
  ⟨0x1FA0, 0x1FA8, 8, 1⟩, ⟨0x1FB0, 0x1FB8, 2, 1⟩, ⟨0x1FB3, 0x1FBC, 1, 1⟩, ⟨0x1FC3, 0x1FCC, 1, 1⟩,
  ⟨0x1FD0, 0x1FD8, 2, 1⟩, ⟨0x1FE0, 0x1FE8, 2, 1⟩, ⟨0x1FE5, 0x1FEC, 1, 1⟩, ⟨0x1FF3, 0x1FFC, 1, 1⟩,
  ⟨0x2132, 0x214E, 1, 1⟩, ⟨0x2160, 0x2170, 16, 1⟩, ⟨0x2183, 0x2184, 1, 1⟩,
  ⟨0x24B6, 0x24D0, 26, 1⟩, ⟨0x2C00, 0x2C30, 48, 1⟩, ⟨0x2C60, 0x2C61, 1, 1⟩,
  ⟨0x2C67, 0x2C68, 3, 2⟩, ⟨0x2C72, 0x2C73, 1, 1⟩, ⟨0x2C75, 0x2C76, 1, 1⟩, ⟨0x2C80, 0x2C81, 50, 2⟩,
  ⟨0x2CEB, 0x2CEC, 2, 2⟩, ⟨0x2CF2, 0x2CF3, 1, 1⟩, ⟨0xA640, 0xA641, 5, 2⟩, ⟨0xA64C, 0xA64D, 17, 2⟩,
  ⟨0xA680, 0xA681, 14, 2⟩, ⟨0xA722, 0xA723, 7, 2⟩, ⟨0xA732, 0xA733, 31, 2⟩,
  ⟨0xA779, 0xA77A, 2, 2⟩, ⟨0xA77E, 0xA77F, 5, 2⟩, ⟨0xA78B, 0xA78C, 1, 1⟩, ⟨0xA790, 0xA791, 2, 2⟩,
  ⟨0xA794, 0xA7C4, 1, 1⟩, ⟨0xA796, 0xA797, 10, 2⟩, ⟨0xA7B3, 0xAB53, 1, 1⟩, ⟨0xA7B4, 0xA7B5, 8, 2⟩,
  ⟨0xA7C7, 0xA7C8, 2, 2⟩, ⟨0xA7CC, 0xA7CD, 1, 1⟩, ⟨0xA7D0, 0xA7D1, 1, 1⟩, ⟨0xA7D6, 0xA7D7, 3, 2⟩,
  ⟨0xA7F5, 0xA7F6, 1, 1⟩, ⟨0xFB05, 0xFB06, 1, 1⟩, ⟨0xFF21, 0xFF41, 26, 1⟩,
  ⟨0x10400, 0x10428, 40, 1⟩, ⟨0x104B0, 0x104D8, 36, 1⟩, ⟨0x10570, 0x10597, 11, 1⟩,
  ⟨0x1057C, 0x105A3, 15, 1⟩, ⟨0x1058C, 0x105B3, 7, 1⟩, ⟨0x10594, 0x105BB, 2, 1⟩,
  ⟨0x10C80, 0x10CC0, 51, 1⟩, ⟨0x10D50, 0x10D70, 22, 1⟩, ⟨0x118A0, 0x118C0, 32, 1⟩,
  ⟨0x16E40, 0x16E60, 32, 1⟩, ⟨0x1E900, 0x1E922, 34, 1⟩]

/-- The larger groups of characters that fold to one another. -/
def foldGroups : List (List Nat) := [
  [0x4B, 0x6B, 0x212A], [0x53, 0x73, 0x17F], [0xB5, 0x39C, 0x3BC], [0xC5, 0xE5, 0x212B],
  [0x1C4, 0x1C5, 0x1C6], [0x1C7, 0x1C8, 0x1C9], [0x1CA, 0x1CB, 0x1CC], [0x1F1, 0x1F2, 0x1F3],
  [0x345, 0x399, 0x3B9, 0x1FBE], [0x392, 0x3B2, 0x3D0], [0x395, 0x3B5, 0x3F5],
  [0x398, 0x3B8, 0x3D1, 0x3F4], [0x39A, 0x3BA, 0x3F0], [0x3A0, 0x3C0, 0x3D6],
  [0x3A1, 0x3C1, 0x3F1], [0x3A3, 0x3C2, 0x3C3], [0x3A6, 0x3C6, 0x3D5], [0x3A9, 0x3C9, 0x2126],
  [0x412, 0x432, 0x1C80], [0x414, 0x434, 0x1C81], [0x41E, 0x43E, 0x1C82], [0x421, 0x441, 0x1C83],
  [0x422, 0x442, 0x1C84, 0x1C85], [0x42A, 0x44A, 0x1C86], [0x462, 0x463, 0x1C87],
  [0x1C88, 0xA64A, 0xA64B], [0x1E60, 0x1E61, 0x1E9B]]

/-- All groups of characters that fold to one another. -/
def caseGroups : List (List Nat) := foldGroups ++ foldRuns.flatMap FoldRun.groups

end Unicode
end ExampleSchema
