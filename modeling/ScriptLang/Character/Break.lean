import ScriptLang.Character.Property
import ScriptLang.Character.Script

/-!
# Classes for the division of text

The classes of characters by which a text is divided into what a reader takes for a character
(`Break.grapheme`), into words (`Break.word`) and into sentences (`Break.sentence`). They follow
from general categories and properties by the rules of the Unicode standard.
-/

namespace ScriptLang.Break

open Property (basicSet)

/-- The syllables of the Korean script, from a first one, in steps of as many as share their first
two letters. -/
def syllables (first count : Nat) : Ranges :=
  ⟨((List.range 399).map fun i =>
    (first + 28 * i, first + 28 * i + count - 1)).toArray⟩

/-- Signs for a consonant before the one that they precede in speech. -/
def precedingConsonants : Ranges := .decode
  ["d4e 1 10473 2 20d 1 56d 1 1 1 f8 1 49 6 2bc 1 1bb 1"]

/-- Vowel signs that end a syllable by themselves. -/
def finalVowels : Ranges := .decode
  ["102b 2 b 1 29 3 2 7 15 1 3 6 2 1 a 3 9c4 1 1 2 9016 1 1 1 6ca2 2"]

/-- What attaches to the character before it and takes room of its own. -/
def spacing : Ranges :=
  .union (.points [0xE33, 0xEB3])
    (.diff (Category.together ["mc"]) (.union Property.extenders finalVowels))

/-- Controls that stand alone: all but what joins, and signs that enclose numbers. -/
def controls : Ranges :=
  let reserved := Category.unassigned.inter Property.ignorable
  let formats := Category.together ["cc", "cf", "zl", "zp"]
  .diff (formats.union reserved)
    (.unions [.points [0xA, 0xD, 0x200D], basicSet "prependedconcatenationmark",
      Property.extenders])

/-- The classes for what a reader takes for a character. -/
def grapheme : List NamedSet :=
  [⟨["cn", "control"], controls⟩,
   ⟨["cr"], .points [0xD]⟩,
   ⟨["ex", "extend"], .union Property.extenders (basicSet "emojimodifier")⟩,
   ⟨["l"], .union (.between 0x1100 0x115F) (.between 0xA960 0xA97C)⟩,
   ⟨["lf"], .points [0xA]⟩,
   ⟨["lv"], syllables 0xAC00 1⟩,
   ⟨["lvt"], syllables 0xAC01 27⟩,
   ⟨["pp", "prepend"], precedingConsonants.union (basicSet "prependedconcatenationmark")⟩,
   ⟨["ri", "regionalindicator"], basicSet "regionalindicator"⟩,
   ⟨["sm", "spacingmark"], spacing⟩,
   ⟨["t"], .union (.between 0x11A8 0x11FF) (.between 0xD7CB 0xD7FB)⟩,
   ⟨["v"], .unions [.between 0x1160 0x11A7, .between 0xD7B0 0xD7C6, .points [0x16D63],
    .between 0x16D67 0x16D6A]⟩,
   ⟨["zwj"], .points [0x200D]⟩]

/-- Signs that enclose or mark a number. -/
def numberSigns : Ranges :=
  .diff (basicSet "prependedconcatenationmark") (.points [0x70F])

/-- Decimal digits, and signs that are read with them. -/
def digits : Ranges := .unions [Category.together ["nd"], .points [0x66B], numberSigns]

/-- Marks, and modifiers that attach like them. -/
def marks : Ranges := .union Property.extenders (Category.together ["mc"])

/-- The characters of Japanese words in syllables. -/
def katakana : Ranges :=
  .union ((Script.find? "kana").getD Ranges.empty)
    (.unions [.between 0x3031 0x3035, .points [0x309B, 0x309C, 0x30A0, 0x30FC, 0xFF70]])

/-- The Hebrew letters. -/
def hebrew : Ranges := (Category.together ["lo"]).inter ((Script.find? "hebr").getD Ranges.empty)

/-- Signs that are no letters and stand in words like them. -/
def letterSigns : Ranges := .decode
  ["2c2 4 c 6 6 2 5 7 1 1 1 11 25a 3 1 1 2b 1 68 1 11b 1 9ff8 f 9 2 67 2 3d0 1"]

/-- The characters of writing systems that do not part words, of which the context tells where they
end. -/
def contextual : Ranges := .decode
  ["e01 3a 5 f 32 2 1 1 1 5 1 18 1 1 1 17 2 5 1 1 1 7 d 4 120 40 10 40 a 6 6e0 54 3 1 4 2 172 1e",
   "2 5 b 2c 4 1a 10 1 3 2 40 3f 1 1d 23 e 8f32 10 a 5 61 63 18 5 6c20 1b 2 f e 2 3 8"]

/-- The letters of words that are written in letters. -/
def wordLetters : Ranges :=
  .diff (.union Property.alphabetic letterSigns)
    (.unions [basicSet "ideographic", katakana, hebrew, contextual, marks,
      (Script.find? "hira").getD Ranges.empty])

/-- The classes for the division into words. -/
def word : List NamedSet :=
  [⟨["cr"], .points [0xD]⟩,
   ⟨["dq", "doublequote"], .points [0x22]⟩,
   ⟨["ex", "extendnumlet"], .union (Category.together ["pc"]) (.points [0x202F])⟩,
   ⟨["extend"], .diff (.union marks (basicSet "emojimodifier")) (.points [0x200D])⟩,
   ⟨["fo", "format"], .diff (Category.together ["cf"])
    (.unions [.between 0x200B 0x200D, basicSet "prependedconcatenationmark", marks])⟩,
   ⟨["hl", "hebrewletter"], hebrew⟩,
   ⟨["ka", "katakana"], katakana⟩,
   ⟨["le", "aletter"], wordLetters⟩,
   ⟨["lf"], .points [0xA]⟩,
   ⟨["mb", "midnumlet"], .points [0x2E, 0x2018, 0x2019, 0x2024, 0xFE52, 0xFF07, 0xFF0E]⟩,
   ⟨["ml", "midletter"],
    .points [0x3A, 0xB7, 0x387, 0x55F, 0x5F4, 0x2027, 0xFE13, 0xFE55, 0xFF1A]⟩,
   ⟨["mn", "midnum"], .points [0x2C, 0x3B, 0x37E, 0x589, 0x60C, 0x60D, 0x66C, 0x7F8, 0x2044,
    0xFE10, 0xFE14, 0xFE50, 0xFE54, 0xFF0C, 0xFF1B]⟩,
   ⟨["nl", "newline"], .points [0xB, 0xC, 0x85, 0x2028, 0x2029]⟩,
   ⟨["nu", "numeric"], digits⟩,
   ⟨["ri", "regionalindicator"], basicSet "regionalindicator"⟩,
   ⟨["sq", "singlequote"], .points [0x27]⟩,
   ⟨["wsegspace"], .diff (Category.together ["zs"]) (.points [0xA0, 0x2007, 0x202F])⟩,
   ⟨["zwj"], .points [0x200D]⟩]

/-- Capital letters and small ones of the Georgian script, which does not part sentences by them. -/
def georgian : Ranges := .decode ["10d0 2b 2 3 b90 2b 2 3"]

/-- The small letters that go on with a sentence. -/
def smallLetters : Ranges := Property.lowercase.diff (.union georgian Property.extenders)

/-- The capital letters that can start a sentence. -/
def capitalLetters : Ranges :=
  .diff (.union Property.uppercase (Category.together ["lt"])) georgian

/-- Full stops, which need not end a sentence. -/
def stops : Ranges := .points [0x2E, 0x2024, 0xFE52, 0xFF0E]

/-- Quotation marks of any kind. -/
def quotes : Ranges := .unions [Category.together ["pi", "pf"], .between 0x275B 0x2760,
  .between 0x1F676 0x1F678, .points [0x22, 0x27, 0x2E00, 0x2E01, 0x2E06, 0x2E07, 0x2E08, 0x2E0B]]

/-- The classes for the division into sentences. -/
def sentence : List NamedSet :=
  [⟨["at", "aterm"], stops⟩,
   ⟨["cl", "close"], .union (Category.together ["ps", "pe"]) quotes⟩,
   ⟨["cr"], .points [0xD]⟩,
   ⟨["ex", "extend"], .union marks (.points [0x200D])⟩,
   ⟨["fo", "format"], .diff (Category.together ["cf"])
    (.unions [.points [0x200D], numberSigns, marks])⟩,
   ⟨["le", "oletter"], .diff (.union Property.alphabetic (.points [0x5F3]))
    (.unions [smallLetters, capitalLetters, marks])⟩,
   ⟨["lf"], .points [0xA]⟩,
   ⟨["lo", "lower"], smallLetters⟩,
   ⟨["nu", "numeric"], .unions [digits, .points [0x66C]]⟩,
   ⟨["sc", "scontinue"], .unions [.points [0x2C, 0x2D, 0x3A, 0x3B, 0x37E, 0x55D, 0x60C, 0x60D,
    0x7F8, 0x1802, 0x1808, 0x2013, 0x2014, 0x3001, 0xFE10, 0xFE11, 0xFE13, 0xFE14, 0xFE31, 0xFE32,
    0xFE50, 0xFE51, 0xFE54, 0xFE55, 0xFE58, 0xFE63, 0xFF0C, 0xFF0D, 0xFF1A, 0xFF1B, 0xFF64]]⟩,
   ⟨["se", "sep"], .points [0x85, 0x2028, 0x2029]⟩,
   ⟨["sp"], .diff (basicSet "whitespace") (.points [0xA, 0xD, 0x85, 0x2028, 0x2029])⟩,
   ⟨["st", "sterm"], .diff (basicSet "sentenceterminal") stops⟩,
   ⟨["up", "upper"], capitalLetters⟩]

end ScriptLang.Break
