import RulesText.Text.Property.Table

/-!
# Segmentation properties

The classes by which texts are cut into grapheme clusters, words and sentences.
-/

namespace RulesText.Text

/-- The classes for grapheme clusters. Like all classes here they refer to other properties. -/
def graphemeRows : List PropertyRow := [
  { names := ["zwj"], codes := ["200D"] },
  { names := ["ri", "regionalindicator"], includes := ["ri"] },
  { names := ["lvt"], codes := ["AC00-D7A3"], excludes := ["lv"] },
  { names := ["lv"], codes := ["AC00-D788/1C"] },
  { names := ["t"], codes := ["11A8-11FF D7CB-D7FB"] },
  { names := ["v"], codes := ["1160-11A7 D7B0-D7C6 16D63 16D67-16D6A"] },
  { names := ["l"], codes := ["1100-115F A960-A97C"] },
  { names := ["sm", "spacingmark"], includes := ["mc"],
    codes := ["E33 EB3"], excludes := ["grext"],
    exceptions := [
      "102B-102C 1038 1062-1064 1067-106D 1083 1087-108C 108F 109A-109C 1A61 1A63-1A64 AA7B",
      "AA7D 1171E 11720-11721"] },
  { names := ["pp", "prepend"], includes := ["pcm"],
    codes := ["D4E 111C2-111C3 113D1 1193F 11941 11A3A 11A84-11A89 11D46 11F02"] },
  { names := ["ex", "extend"], includes := ["grext", "emod"] },
  { names := ["cn", "control"], includes := ["zl", "zp", "cc", "cf"],
    codes := ["2065 FFF0-FFF8 E0000 E0002-E001F E0080-E00FF E01F0-E0FFF"], excludes := ["pcm"],
    exceptions := ["A D 200C-200D E0020-E007F"] },
  { names := ["lf"], codes := ["A"] },
  { names := ["cr"], codes := ["D"] }]

/-- The classes for words. -/
def wordRows : List PropertyRow := [
  { names := ["nu", "numeric"], includes := ["nd"], codes := ["66B"] },
  { names := ["wsegspace"], codes := ["20 1680 2000-2006 2008-200A 205F 3000"] },
  { names := ["ex", "extendnumlet"],
    codes := ["5F 202F 203F-2040 2054 FE33-FE34 FE4D-FE4F FF3F"] },
  { names := ["mn", "midnum"],
    codes := ["2C 3B 37E 589 60C-60D 66C 7F8 2044 FE10 FE14 FE50 FE54 FF0C FF1B"] },
  { names := ["ml", "midletter"], codes := ["3A B7 387 55F 5F4 2027 FE13 FE55 FF1A"] },
  { names := ["mb", "midnumlet"], codes := ["2E 2018-2019 2024 FE52 FF07 FF0E"] },
  { names := ["dq", "doublequote"], codes := ["22"] },
  { names := ["sq", "singlequote"], codes := ["27"] },
  { names := ["le", "aletter"], includes := ["alpha"],
    codes := [
      "2C2-2C5 2D2-2D7 2DE-2DF 2E5-2EB 2ED 2EF-2FF 55A-55C 55E 58A 5F3 A708-A716 A720-A721",
      "A789-A78A AB5B"],
    excludes := ["ideo", "nonspacingmark", "mc"],
    exceptions := [
      "5D0-5EA 5EF-5F2 E01-E30 E32-E33 E40-E46 E81-E82 E84 E86-E8A E8C-EA3 EA5 EA7-EB0 EB2-EB3",
      "EBD EC0-EC4 EC6 EDC-EDF 1000-102A 103F 1050-1055 105A-105D 1061 1065-1066 106E-1070",
      "1075-1081 108E 1780-17B3 17D7 17DC 1950-196D 1970-1974 1980-19AB 19B0-19C9 1A20-1A54",
      "1AA7 3031-3035 3041-3096 309D-309F 30A1-30FA 30FC-30FF 31F0-31FF A9E0-A9E4 A9E6-A9EF",
      "A9FA-A9FE AA60-AA76 AA7A AA7E-AAAF AAB1 AAB5-AAB6 AAB9-AABD AAC0 AAC2 AADB-AADD FB1D",
      "FB1F-FB28 FB2A-FB36 FB38-FB3C FB3E FB40-FB41 FB43-FB44 FB46-FB4F FF66-FF9F 11700-1171A",
      "11740-11746 1AFF0-1AFF3 1AFF5-1AFFB 1AFFD-1AFFE 1B000-1B122 1B132 1B150-1B152 1B155",
      "1B164-1B167"] },
  { names := ["hl", "hebrewletter"],
    codes := [
      "5D0-5EA 5EF-5F2 FB1D FB1F-FB28 FB2A-FB36 FB38-FB3C FB3E FB40-FB41 FB43-FB44 FB46-FB4F"] },
  { names := ["ka", "katakana"],
    codes := [
      "3031-3035 309B-309C 30A0-30FA 30FC-30FF 31F0-31FF 32D0-32FE 3300-3357 FF66-FF9D",
      "1AFF0-1AFF3 1AFF5-1AFFB 1AFFD-1AFFE 1B000 1B120-1B122 1B155 1B164-1B167"] },
  { names := ["fo", "format"], includes := ["cf"], exceptions := ["200B-200D E0020-E007F"] },
  { names := ["ri", "regionalindicator"], includes := ["ri"] },
  { names := ["zwj"], codes := ["200D"] },
  { names := ["extend"], includes := ["grext", "mc", "emod"] },
  { names := ["nl", "newline"], codes := ["B-C 85 2028-2029"] },
  { names := ["lf"], codes := ["A"] },
  { names := ["cr"], codes := ["D"] }]

/-- The classes for sentences. -/
def sentenceRows : List PropertyRow := [
  { names := ["cl", "close"], includes := ["ps", "pe", "pi", "pf"],
    codes := ["22 27 275B-2760 2E00-2E01 2E06-2E08 2E0B 1F676-1F678"] },
  { names := ["st", "sterm"], includes := ["sterm"], exceptions := ["2E 2024 FE52 FF0E"] },
  { names := ["sc", "scontinue"],
    codes := [
      "2C-2D 3A 55D 60C-60D 7F8 1802 1808 2013-2014 3001 FE10-FE11 FE13 FE31-FE32 FE50-FE51",
      "FE55 FE58 FE63 FF0C-FF0D FF1A FF64"] },
  { names := ["at", "aterm"], codes := ["2E 2024 FE52 FF0E"] },
  { names := ["nu", "numeric"], includes := ["nd"], codes := ["66B-66C"] },
  { names := ["le", "oletter"], includes := ["alpha"],
    codes := ["5F3"], excludes := ["lower", "upper", "lt", "nonspacingmark", "mc"],
    exceptions := ["FF9E-FF9F"] },
  { names := ["up", "upper"], includes := ["upper", "lt"], exceptions := ["1C90-1CBA 1CBD-1CBF"] },
  { names := ["lo", "lower"], includes := ["lower"],
    codes := ["295"], excludes := ["grext"],
    exceptions := ["10D0-10FA 10FD-10FF"] },
  { names := ["sp", "sp"], includes := ["wspace"], exceptions := ["A D 85 2028-2029"] },
  { names := ["fo", "format"], includes := ["cf"], exceptions := ["200C-200D E0020-E007F"] },
  { names := ["se", "sep"], codes := ["85 2028-2029"] },
  { names := ["ex", "extend"], includes := ["grext", "mc"], codes := ["200D"] },
  { names := ["lf"], codes := ["A"] },
  { names := ["cr"], codes := ["D"] }]

end RulesText.Text
