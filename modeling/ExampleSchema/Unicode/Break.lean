import ExampleSchema.Unicode.Property
import ExampleSchema.Unicode.Script

/-!
# Text boundaries

How a character behaves at the boundaries of clusters, words and sentences.  Each behaviour is a
value of one of three properties; `clusterBreak?`, `wordBreak?` and `sentenceBreak?` give the
characters of a value by its name.  Characters without special behaviour have no named value.
-/

namespace ExampleSchema
namespace Unicode

/-- The characters of a list of values, by the name of the value. -/
def valueOf? (values : List (List String × CharSet)) (name : String) : Option CharSet :=
  (values.find? (·.1.contains name)).map (·.2)

/-- The joiner. -/
def joiner : CharSet := .single 0x200D

/-- Carriage return and line feed. -/
def carriageReturn : CharSet := .single 0xD

@[inherit_doc carriageReturn]
def lineFeed : CharSet := .single 0xA

/-- Format characters that stand before digits and count as digits. -/
def numberSigns : CharSet := .ofTable "600-605 6DD 890-891 8E2 110BD 110CD"

/-! ## Clusters -/

/-- Characters that join the character after them. -/
def clusterPrepend : CharSet :=
  .ofTable
    "600-605 6DD 70F 890-891 8E2 D4E 110BD 110CD 111C2-111C3 113D1 1193F 11941 11A3A 11A84-11A89
     11D46 11F02"

/-- Characters that join the character before them. -/
def clusterExtend : CharSet := graphemeExtend.union BasicProperty.emojiModifier.set

/-- Vowel signs that combine like syllable letters. -/
def combiningVowels : CharSet := .ofTable "16D63 16D67-16D6A"

/-- Spacing marks that join the character before them. -/
def clusterSpacingMark : CharSet :=
  (((Category.spacingMark.set.union (.ofTable "E33 EB3")).diff clusterExtend).diff
    (clusterPrepend.union combiningVowels)).diff
    (.ofTable
      "102B-102C 1038 1062-1064 1067-106D 1083 1087-108C 108F 109A-109C 1A61 1A63-1A64 AA7B AA7D
       11720-11721")

/-- Controls, which stand alone. -/
def clusterControl : CharSet :=
  (categoriesAnd [.lineSeparator, .paragraphSeparator, .control, .format]
    (Category.unassigned.set.inter defaultIgnorable)).diff
    ((clusterExtend.union BasicProperty.prependedConcatenationMark.set).union
      (.ofTable "A D 200C-200D"))

/-- All Hangul syllables. -/
def syllables : CharSet := .range 0xAC00 0xD7A3

/-- Hangul syllables without a final consonant: every twenty-eighth. -/
def openSyllables : CharSet :=
  .normalize ((List.range 399).map fun k => (0xAC00 + 28 * k, 0xAC00 + 28 * k))

/-- The values for clusters. -/
def clusterBreaks : List (List String × CharSet) :=
  [(["cr"], carriageReturn),
    (["lf"], lineFeed),
    (["cn", "control"], clusterControl),
    (["ex", "extend"], clusterExtend),
    (["zwj"], joiner),
    (["ri", "regionalindicator"], BasicProperty.regionalIndicator.set),
    (["pp", "prepend"], clusterPrepend),
    (["sm", "spacingmark"], clusterSpacingMark),
    (["l"], .ofTable "1100-115F A960-A97C"),
    (["v"], combiningVowels.union (.ofTable "1160-11A7 D7B0-D7C6")),
    (["t"], .ofTable "11A8-11FF D7CB-D7FB"),
    (["lv"], openSyllables),
    (["lvt"], syllables.diff openSyllables)]

/-- The characters with a behaviour in clusters. -/
def clusterBreak? : String → Option CharSet := valueOf? clusterBreaks

/-! ## Words -/

/-- Katakana and the signs used with it. -/
def wordKatakana : CharSet :=
  match script? "katakana" with
  | some s => s.set.union (.ofTable "3031-3035 309B-309C 30A0 30FC FF70")
  | none => .none

/-- Hebrew letters. -/
def hebrewLetter : CharSet :=
  match script? "hebrew" with
  | some s => s.set.inter Category.otherLetter.set
  | none => .none

/-- Marks that extend the word before them. -/
def wordExtend : CharSet := categoriesAnd [.spacingMark] clusterExtend

/-- Letters of scripts written without spaces between words. -/
def unspacedLetters : CharSet :=
  .ofTable
    "E01-E30 E32-E33 E40-E46 E81-E82 E84 E86-E8A E8C-EA3 EA5 EA7-EB0 EB2-EB3 EBD EC0-EC4 EC6
     EDC-EDF 1000-102A 103F 1050-1055 105A-105D 1061 1065-1066 106E-1070 1075-1081 108E 1780-17B3
     17D7 17DC 1950-196D 1970-1974 1980-19AB 19B0-19C9 1A20-1A54 1AA7 3041-3096 309D-309F A9E0-A9E4
     A9E6-A9EF A9FA-A9FE AA60-AA76 AA7A AA7E-AAAF AAB1 AAB5-AAB6 AAB9-AABD AAC0 AAC2 AADB-AADD
     11700-1171A 11740-11746 1B001-1B11F 1B132 1B150-1B152"

/-- Signs that count as letters of a word. -/
def letterSigns : CharSet :=
  .ofTable
    "B8 2C2-2C5 2D2-2D7 2DE-2DF 2E5-2EB 2ED 2EF-2FF 55A-55C 55E 58A 5F3 70F A708-A716 A720-A721
     A789-A78A AB5B"

/-- Letters of a word. -/
def wordLetter : CharSet :=
  (((alphabetic.diff BasicProperty.ideographic.set).diff (wordKatakana.union hebrewLetter)).diff
    (wordExtend.union unspacedLetters)).union letterSigns

/-- Digits of a number and the signs that count as digits. -/
def digitLike (separators : CharSet) : CharSet :=
  categoriesAnd [.decimalNumber] (numberSigns.union separators)

/-- The values for words. -/
def wordBreaks : List (List String × CharSet) :=
  [(["cr"], carriageReturn),
    (["lf"], lineFeed),
    (["nl", "newline"], .ofTable "B-C 85 2028-2029"),
    (["extend"], wordExtend.diff joiner),
    (["zwj"], joiner),
    (["ri", "regionalindicator"], BasicProperty.regionalIndicator.set),
    (["fo", "format"],
      Category.format.set.diff
        ((wordExtend.union numberSigns).union (.ofTable "70F 200B-200D"))),
    (["ka", "katakana"], wordKatakana),
    (["hl", "hebrewletter"], hebrewLetter),
    (["le", "aletter"], wordLetter),
    (["sq", "singlequote"], .single 0x27),
    (["dq", "doublequote"], .single 0x22),
    (["mb", "midnumlet"], .ofTable "2E 2018-2019 2024 FE52 FF07 FF0E"),
    (["ml", "midletter"], .ofTable "3A B7 387 55F 5F4 2027 FE13 FE55 FF1A"),
    (["mn", "midnum"],
      .ofTable "2C 3B 37E 589 60C-60D 66C 7F8 2044 FE10 FE14 FE50 FE54 FF0C FF1B"),
    (["nu", "numeric"], digitLike (.single 0x66B)),
    (["ex", "extendnumlet"], .ofTable "5F 202F 203F-2040 2054 FE33-FE34 FE4D-FE4F FF3F"),
    (["wsegspace"], .ofTable "20 1680 2000-2006 2008-200A 205F 3000")]

/-- The characters with a behaviour in words. -/
def wordBreak? : String → Option CharSet := valueOf? wordBreaks

/-! ## Sentences -/

/-- Marks that extend the character before them. -/
def sentenceExtend : CharSet := categoriesAnd [.spacingMark] (graphemeExtend.union joiner)

/-- Lower case, without the Georgian letters that have no case of their own. -/
def sentenceLower : CharSet :=
  (lowercase.diff graphemeExtend).diff (.ofTable "10D0-10FA 10FD-10FF")

/-- Upper case, without the Georgian capitals. -/
def sentenceUpper : CharSet :=
  (categoriesAnd [.titlecaseLetter] uppercase).diff (.ofTable "1C90-1CBA 1CBD-1CBF")

/-- Full stops that may also end an abbreviation. -/
def sentenceStop : CharSet := .ofTable "2E 2024 FE52 FF0E"

/-- Marks that end a sentence. -/
def sentenceTerminal : CharSet := BasicProperty.sentenceTerminal.set.diff sentenceStop

/-- The values for sentences. -/
def sentenceBreaks : List (List String × CharSet) :=
  [(["cr"], carriageReturn),
    (["lf"], lineFeed),
    (["ex", "extend"], sentenceExtend),
    (["se", "sep"], .ofTable "85 2028-2029"),
    (["fo", "format"],
      Category.format.set.diff ((sentenceExtend.union numberSigns).union (.ofTable "200C-200D"))),
    (["sp"], BasicProperty.whiteSpace.set.diff (.ofTable "A D 85 2028-2029")),
    (["lo", "lower"], sentenceLower),
    (["up", "upper"], sentenceUpper),
    (["le", "oletter"],
      (alphabetic.union (.ofTable "A0 5F3")).diff
        ((sentenceLower.union sentenceUpper).union
          (sentenceExtend.union (.single 0xA0)))),
    (["nu", "numeric"], digitLike (.ofTable "66B-66C")),
    (["at", "aterm"], sentenceStop),
    (["sc", "scontinue"],
      .ofTable
        "2C-2D 3A-3B 37E 55D 60C-60D 7F8 1802 1808 2013-2014 3001 FE10-FE11 FE13-FE14 FE31-FE32
         FE50-FE51 FE54-FE55 FE58 FE63 FF0C-FF0D FF1A-FF1B FF64"),
    (["st", "sterm"], sentenceTerminal),
    (["cl", "close"],
      (categoriesAnd [.openPunctuation, .closePunctuation, .initialPunctuation, .finalPunctuation]
        (.ofTable "22 27 275B-2760 2E00-2E0D 2E1C-2E1D 2E20-2E21 1F676-1F678")).diff
        (sentenceStop.union sentenceTerminal))]

/-- The characters with a behaviour in sentences. -/
def sentenceBreak? : String → Option CharSet := valueOf? sentenceBreaks

end Unicode
end ExampleSchema
