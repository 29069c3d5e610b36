import CommandLine.Text.CodePoints

/-!
# Classes of characters for line breaking

The classes of Unicode's line breaking algorithm (Standard Annex 14), as they are once resolved:
a conditional Japanese starter is a non-starter, and a character of no other class is a letter, as
is every character, marks included, of the scripts that would need a dictionary.
-/

namespace CommandLine.Text.LineBreak

inductive Class
  | mandatory
  | carriageReturn
  | lineFeed
  | nextLine
  | space
  | zeroWidthSpace
  | joiner
  | combiningMark
  | wordJoiner
  | glue
  | bothSides
  | breakAfter
  | breakBefore
  | hyphen
  | contingent
  | closing
  | closingParenthesis
  | exclamation
  | inseparable
  | nonStarter
  | opening
  | wideOpening
  /-- A quotation mark that opens and closes alike. -/
  | quotation
  | initialQuotation
  | finalQuotation
  | infixSeparator
  | numeric
  | postfixNumeric
  | prefixNumeric
  | symbol
  | emojiBase
  | emojiModifier
  /-- A code point kept free for an emoji, which is ideographic in every other way. -/
  | reservedEmoji
  | hebrewLetter
  /-- A consonant or vowel of a Brahmic script, which may be conjoined with the one before it. -/
  | aksara
  /-- One that is never conjoined with the one before it. -/
  | aksaraStart
  /-- One that is written before the syllable it belongs to. -/
  | aksaraPrebase
  | virama
  | viramaFinal
  /-- The dotted circle, which stands for any consonant or vowel, and is a letter as well. -/
  | placeholder
  | ideographic
  | leadingJamo
  | vowelJamo
  | trailingJamo
  | regionalIndicator
  | letter
  /-- A precomposed Hangul syllable without, and with, a final consonant. -/
  | openSyllable
  | closedSyllable
  deriving DecidableEq, Inhabited, Repr

def mandatoryTable : CodePoints := .ofTable
  "B-C 2028-2029"

def carriageReturnTable : CodePoints := .ofTable
  "D"

def lineFeedTable : CodePoints := .ofTable
  "A"

def nextLineTable : CodePoints := .ofTable
  "85"

def spaceTable : CodePoints := .ofTable
  "20"

def zeroWidthSpaceTable : CodePoints := .ofTable
  "200B"

def joinerTable : CodePoints := .ofTable
  "200D"

def combiningMarkTable : CodePoints := .ofTable
  "0-8 E-1F 7F-84 86-9F 300-34E 350-35B 363-36F 483-489 591-5BD 5BF 5C1-5C2 5C4-5C5 5C7 610-61A
   61C 64B-65F 670 6D6-6DC 6DF-6E4 6E7-6E8 6EA-6ED 711 730-74A 7A6-7B0 7EB-7F3 7FD 816-819
   81B-823 825-827 829-82D 859-85B 898-89F 8CA-8E1 8E3-903 93A-93C 93E-94F 951-957 962-963
   981-983 9BC 9BE-9C4 9C7-9C8 9CB-9CD 9D7 9E2-9E3 9FE A01-A03 A3C A3E-A42 A47-A48 A4B-A4D A51
   A70-A71 A75 A81-A83 ABC ABE-AC5 AC7-AC9 ACB-ACD AE2-AE3 AFA-AFF B01-B03 B3C B3E-B44 B47-B48
   B4B-B4D B55-B57 B62-B63 B82 BBE-BC2 BC6-BC8 BCA-BCD BD7 C00-C04 C3C C3E-C44 C46-C48 C4A-C4D
   C55-C56 C62-C63 C81-C83 CBC CBE-CC4 CC6-CC8 CCA-CCD CD5-CD6 CE2-CE3 CF3 D00-D03 D3B-D3C
   D3E-D44 D46-D48 D4A-D4D D57 D62-D63 D81-D83 DCA DCF-DD4 DD6 DD8-DDF DF2-DF3 F18-F19 F35 F37
   F39 F3E-F3F F71-F7E F80-F84 F86-F87 F8D-F97 F99-FBC FC6 135D-135F 1712-1715 1732-1734
   1752-1753 1772-1773 180B-180D 180F 1885-1886 18A9 1920-192B 1930-193B 1A17-1A1B 1A7F
   1AB0-1ACE 1B00-1B04 1B34-1B43 1B6B-1B73 1B80-1B82 1BA1-1BAD 1BE6-1BF1 1C24-1C37 1CD0-1CD2
   1CD4-1CE8 1CED 1CF4 1CF7-1CF9 1DC0-1DCC 1DCE-1DFB 1DFD-1DFF 200C 200E-200F 202A-202E
   2066-206F 20D0-20F0 2CEF-2CF1 2D7F 2DE0-2DFF 302A-302F 3035 3099-309A A66F-A672 A674-A67D
   A69E-A69F A6F0-A6F1 A802 A806 A80B A823-A827 A82C A880-A881 A8B4-A8C5 A8E0-A8F1 A8FF
   A926-A92D A947-A953 A980-A983 A9B3-A9BF AA29-AA36 AA43 AA4C-AA4D AAEB-AAEF AAF5-AAF6
   ABE3-ABEA ABEC-ABED FB1E FE00-FE0F FE20-FE2F FFF9-FFFB 101FD 102E0 10376-1037A 10A01-10A03
   10A05-10A06 10A0C-10A0F 10A38-10A3A 10A3F 10AE5-10AE6 10D24-10D27 10EAB-10EAC 10EFD-10EFF
   10F46-10F50 10F82-10F85 11000-11002 11038-11045 11070 11073-11074 11080-11082 110B0-110BA
   110C2 11100-11102 11127-11134 11145-11146 11173 11180-11182 111B3-111C0 111C9-111CC
   111CE-111CF 1122C-11237 1123E 11241 112DF-112EA 11300-11303 1133B-1133C 1133E-11344
   11347-11348 1134B-1134C 11357 11362-11363 11366-1136C 11370-11374 11435-11446 1145E
   114B0-114C3 115AF-115B5 115B8-115C0 115DC-115DD 11630-11640 116AB-116B7 1182C-1183A
   11930-11935 11937-11938 1193B-1193D 11940 11942-11943 119D1-119D7 119DA-119E0 119E4
   11A01-11A0A 11A33-11A39 11A3B-11A3E 11A47 11A51-11A5B 11A8A-11A99 11C2F-11C36 11C38-11C3F
   11C92-11CA7 11CA9-11CB6 11D31-11D36 11D3A 11D3C-11D3D 11D3F-11D45 11D47 11D8A-11D8E
   11D90-11D91 11D93-11D97 11EF3-11EF6 11F00-11F01 11F03 11F34-11F3A 11F3E-11F41 13440
   13447-13455 16AF0-16AF4 16B30-16B36 16F4F 16F51-16F87 16F8F-16F92 16FF0-16FF1 1BC9D-1BC9E
   1BCA0-1BCA3 1CF00-1CF2D 1CF30-1CF46 1D165-1D169 1D16D-1D182 1D185-1D18B 1D1AA-1D1AD
   1D242-1D244 1DA00-1DA36 1DA3B-1DA6C 1DA75 1DA84 1DA9B-1DA9F 1DAA1-1DAAF 1E000-1E006
   1E008-1E018 1E01B-1E021 1E023-1E024 1E026-1E02A 1E08F 1E130-1E136 1E2AE 1E2EC-1E2EF
   1E4EC-1E4EF 1E8D0-1E8D6 1E944-1E94A E0001 E0020-E007F E0100-E01EF"

def wordJoinerTable : CodePoints := .ofTable
  "2060 FEFF"

def glueTable : CodePoints := .ofTable
  "A0 34F 35C-362 F08 F0C F12 FD9-FDA 180E 1DCD 1DFC 2007 2011 202F 1107F 13430-13436
   13439-1343B 16FE4"

def bothSidesTable : CodePoints := .ofTable
  "2014 2E3A-2E3B"

def breakAfterTable : CodePoints := .ofTable
  "9 7C AD 58A 5BE 964-965 E5A-E5B F0B F34 F7F F85 FBE-FBF FD2 104A-104B 1361 1400 1680
   16EB-16ED 1735-1736 17D4-17D5 17D8 17DA 1804-1805 1B5A-1B5B 1B5D-1B60 1B7D-1B7E 1C3B-1C3F
   1C7E-1C7F 2000-2006 2008-200A 2010 2012-2013 2027 2056 2058-205B 205D-205F 2CFA-2CFC 2CFF
   2D70 2E0E-2E15 2E17 2E19 2E2A-2E2D 2E30-2E31 2E33-2E34 2E3C-2E3E 2E40-2E41 2E43-2E4A 2E4C
   2E4E-2E4F 2E5D 3000 A4FE-A4FF A60D A60F A6F3-A6F7 A8CE-A8CF A92E-A92F A9C7-A9C9 A9CF
   AA40-AA42 AA44-AA4B AA5D-AA5F AAF0-AAF1 ABEB 10100-10102 1039F 103D0 10857 1091F 10A50-10A57
   10AF0-10AF5 10B39-10B3F 10EAD 11047-11048 110BE-110C1 11140-11143 111C5-111C6 111C8
   111DD-111DF 11238-11239 1123B-1123C 112A9 1133D 1135D 1144B-1144E 1145A-1145B 115C2-115C3
   115C9-115D7 11641-11642 1173C-1173E 11944-11946 11A41-11A44 11A9A-11A9C 11AA1-11AA2
   11C41-11C45 11EF2 11EF7-11EF8 11F43-11F44 11FFF 12470-12474 16A6E-16A6F 16AF5 16B37-16B39
   16B44 16E97-16E98 1BC9F 1DA87-1DA8A"

def breakBeforeTable : CodePoints := .ofTable
  "B4 2C8 2CC 2DF C77 C84 F01-F04 F06-F07 F09-F0A FD0-FD1 FD3 1806 1FFD A874-A875 A8FC 11175
   111DB 115C1 11660-1166C 119E2 11A3F 11A45 11A9E-11AA0 11B00-11B09 11C70"

def hyphenTable : CodePoints := .ofTable
  "2D"

def contingentTable : CodePoints := .ofTable
  "FFFC"

def closingTable : CodePoints := .ofTable
  "7D F3B F3D 169C 2046 207E 208E 2309 230B 232A 2769 276B 276D 276F 2771 2773 2775 27C6 27E7
   27E9 27EB 27ED 27EF 2984 2986 2988 298A 298C 298E 2990 2992 2994 2996 2998 29D9 29DB 29FD
   2E23 2E25 2E27 2E29 2E56 2E58 2E5A 2E5C 3001-3002 3009 300B 300D 300F 3011 3015 3017 3019
   301B 301E-301F FD3E FE11-FE12 FE18 FE36 FE38 FE3A FE3C FE3E FE40 FE42 FE44 FE48 FE50 FE52
   FE5A FE5C FE5E FF09 FF0C FF0E FF3D FF5D FF60-FF61 FF63-FF64 1325B-1325D 13282 13287 13289
   1337A-1337B 13438 1343D 1343F 145CF"

def closingParenthesisTable : CodePoints := .ofTable
  "29 5D"

def exclamationTable : CodePoints := .ofTable
  "21 3F 5C6 61B 61D-61F 6D4 7F9 F0D-F11 F14 1802-1803 1808-1809 1944-1945 2762-2763 2CF9 2CFE
   2E2E 2E53-2E54 A60E A876-A877 FE15-FE16 FE56-FE57 FF01 FF1F 115C4-115C5 11C71"

def inseparableTable : CodePoints := .ofTable
  "2024-2026 22EF FE19 10AF6"

def nonStarterTable : CodePoints := .ofTable
  "17D6 203C-203D 2047-2049 3005 301C 303B-303C 3041 3043 3045 3047 3049 3063 3083 3085 3087
   308E 3095-3096 309B-309E 30A0-30A1 30A3 30A5 30A7 30A9 30C3 30E3 30E5 30E7 30EE 30F5-30F6
   30FB-30FE 31F0-31FF A015 FE54-FE55 FF1A-FF1B FF65 FF67-FF70 FF9E-FF9F 16FE0-16FE3 1B132
   1B150-1B152 1B155 1B164-1B167 1F679-1F67B"

def openingTable : CodePoints := .ofTable
  "28 5B 7B A1 BF F3A F3C 169B 201A 201E 2045 207D 208D 2308 230A 2768 276A 276C 276E 2770 2772
   2774 27C5 27E6 27E8 27EA 27EC 27EE 2983 2985 2987 2989 298B 298D 298F 2991 2993 2995 2997
   29D8 29DA 29FC 2E18 2E22 2E24 2E26 2E28 2E42 2E55 2E57 2E59 2E5B FD3F 13258-1325A 13286
   13288 13379 1342F 13437 1343C 1343E 145CE 1E95E-1E95F"

def wideOpeningTable : CodePoints := .ofTable
  "2329 3008 300A 300C 300E 3010 3014 3016 3018 301A 301D FE17 FE35 FE37 FE39 FE3B FE3D FE3F
   FE41 FE43 FE47 FE59 FE5B FE5D FF08 FF3B FF5B FF5F FF62"

def quotationTable : CodePoints := .ofTable
  "22 27 275B-2760 2E00-2E01 2E06-2E08 2E0B 1F676-1F678"

def initialQuotationTable : CodePoints := .ofTable
  "AB 2018 201B-201C 201F 2039 2E02 2E04 2E09 2E0C 2E1C 2E20"

def finalQuotationTable : CodePoints := .ofTable
  "BB 2019 201D 203A 2E03 2E05 2E0A 2E0D 2E1D 2E21"

def infixSeparatorTable : CodePoints := .ofTable
  "2C 2E 3A-3B 37E 589 60C-60D 7F8 2044 FE10 FE13-FE14"

def numericTable : CodePoints := .ofTable
  "30-39 600-605 660-669 66B-66C 6DD 6F0-6F9 7C0-7C9 890-891 8E2 966-96F 9E6-9EF A66-A6F
   AE6-AEF B66-B6F BE6-BEF C66-C6F CE6-CEF D66-D6F DE6-DEF E50-E59 ED0-ED9 F20-F29 1040-1049
   1090-1099 17E0-17E9 1810-1819 1946-194F 19D0-19D9 1A80-1A89 1A90-1A99 1BB0-1BB9 1C40-1C49
   1C50-1C59 A620-A629 A8D0-A8D9 A900-A909 A9F0-A9F9 ABF0-ABF9 104A0-104A9 10D30-10D39 110BD
   110CD 110F0-110F9 11136-1113F 111D0-111D9 112F0-112F9 11450-11459 114D0-114D9 11650-11659
   116C0-116C9 11730-11739 118E0-118E9 11C50-11C59 11D50-11D59 11DA0-11DA9 16A60-16A69
   16AC0-16AC9 16B50-16B59 1D7CE-1D7FF 1E140-1E149 1E2F0-1E2F9 1E4F0-1E4F9 1E950-1E959
   1FBF0-1FBF9"

def postfixNumericTable : CodePoints := .ofTable
  "25 A2 B0 609-60B 66A 9F2-9F3 9F9 D79 2030-2037 2057 20A7 20B6 20BB 20BE 20C0 2103 2109 A838
   FDFC FE6A FF05 FFE0 11FDD-11FE0 1ECAC 1ECB0"

def prefixNumericTable : CodePoints := .ofTable
  "24 2B 5C A3-A5 B1 58F 7FE-7FF 9FB AF1 BF9 E3F 17DB 20A0-20A6 20A8-20B5 20B7-20BA 20BC-20BD
   20BF 20C1-20CF 2116 2212-2213 FE69 FF04 FFE1 FFE5-FFE6 1E2FF"

def symbolTable : CodePoints := .ofTable
  "2F"

def emojiBaseTable : CodePoints := .ofTable
  "261D 26F9 270A-270D 1F385 1F3C2-1F3C4 1F3C7 1F3CA-1F3CC 1F442-1F443 1F446-1F450 1F466-1F478
   1F47C 1F481-1F483 1F485-1F487 1F48F 1F491 1F4AA 1F574-1F575 1F57A 1F590 1F595-1F596
   1F645-1F647 1F64B-1F64F 1F6A3 1F6B4-1F6B6 1F6C0 1F6CC 1F90C 1F90F 1F918-1F91F 1F926
   1F930-1F939 1F93C-1F93E 1F977 1F9B5-1F9B6 1F9B8-1F9B9 1F9BB 1F9CD-1F9CF 1F9D1-1F9DD
   1FAC3-1FAC5 1FAF0-1FAF8"

def emojiModifierTable : CodePoints := .ofTable
  "1F3FB-1F3FF"

def reservedEmojiTable : CodePoints := .ofTable
  "1F02C-1F02F 1F094-1F09F 1F0AF-1F0B0 1F0C0 1F0D0 1F0F6-1F0FF 1F1AE-1F1E5 1F203-1F20F
   1F23C-1F23F 1F249-1F24F 1F252-1F25F 1F266-1F2FF 1F6D8-1F6DB 1F6ED-1F6EF 1F6FD-1F6FF
   1F777-1F77A 1F7DA-1F7DF 1F7EC-1F7EF 1F7F1-1F7FF 1F80C-1F80F 1F848-1F84F 1F85A-1F85F
   1F888-1F88F 1F8AE-1F8AF 1F8B2-1F8FF 1FA54-1FA5F 1FA6E-1FA6F 1FA7D-1FA7F 1FA89-1FA8F 1FABE
   1FAC6-1FACD 1FADC-1FADF 1FAE9-1FAEF 1FAF9-1FAFF 1FC00-1FFFD"

def hebrewLetterTable : CodePoints := .ofTable
  "5D0-5EA 5EF-5F2 FB1D FB1F-FB28 FB2A-FB36 FB38-FB3C FB3E FB40-FB41 FB43-FB44 FB46-FB4F"

def aksaraTable : CodePoints := .ofTable
  "1B05-1B33 1B45-1B4C A984-A9B2 11005-11037 11071-11072 11075 11305-1130C 1130F-11310
   11313-11328 1132A-11330 11332-11333 11335-11339 11360-11361 11900-11906 11909 1190C-11913
   11915-11916 11918-1192F 11F04-11F10 11F12-11F33"

def aksaraStartTable : CodePoints := .ofTable
  "1BC0-1BE5 AA00-AA28 11066-1106F 11350 1135E-1135F 11EE0-11EF1 11F50-11F59"

def aksaraPrebaseTable : CodePoints := .ofTable
  "11003-11004 1193F 11941 11F02"

def viramaTable : CodePoints := .ofTable
  "1B44 A9C0 11046 1134D 1193E 11F42"

def viramaFinalTable : CodePoints := .ofTable
  "1BF2-1BF3"

def placeholderTable : CodePoints := .ofTable
  "25CC"

def ideographicTable : CodePoints := .ofTable
  "1B50-1B59 1B5C 1B61-1B6A 1B74-1B7C 231A-231B 23F0-23F3 2600-2603 2614-2615 2618 261A-261C
   261E-261F 2639-263B 2668 267F 26BD-26C8 26CD 26CF-26D1 26D3-26D4 26D8-26D9 26DC 26DF-26E1
   26EA 26F1-26F5 26F7-26F8 26FA 26FD-2704 2708-2709 2764 2E80-2E99 2E9B-2EF3 2F00-2FD5
   2FF0-2FFF 3003-3004 3006-3007 3012-3013 3020-3029 3030-3034 3036-303A 303D-303F 3042 3044
   3046 3048 304A-3062 3064-3082 3084 3086 3088-308D 308F-3094 309F 30A2 30A4 30A6 30A8
   30AA-30C2 30C4-30E2 30E4 30E6 30E8-30ED 30EF-30F4 30F7-30FA 30FF 3105-312F 3131-318E
   3190-31E3 31EF 3200-321E 3220-3247 3250-4DBF 4E00-A014 A016-A48C A490-A4C6 A9C1-A9C6
   A9CA-A9CD A9D0-A9D9 A9DE-A9DF AA50-AA59 AA5C F900-FAFF FE30-FE34 FE45-FE46 FE49-FE4F FE51
   FE58 FE5F-FE66 FE68 FE6B FF02-FF03 FF06-FF07 FF0A-FF0B FF0D FF0F-FF19 FF1C-FF1E FF20-FF3A
   FF3C FF3E-FF5A FF5C FF5E FF66 FF71-FF9D FFA0-FFBE FFC2-FFC7 FFCA-FFCF FFD2-FFD7 FFDA-FFDC
   FFE2-FFE4 11049-1104D 11052-11065 11950-11959 11F45-11F4F 17000-187F7 18800-18AFF
   18D00-18D08 1B000-1B122 1B170-1B2FB 1F000-1F02B 1F030-1F093 1F0A0-1F0AE 1F0B1-1F0BF
   1F0C1-1F0CF 1F0D1-1F0F5 1F10D-1F10F 1F16D-1F16F 1F1AD 1F200-1F202 1F210-1F23B 1F240-1F248
   1F250-1F251 1F260-1F265 1F300-1F384 1F386-1F39B 1F39E-1F3B4 1F3B7-1F3BB 1F3BD-1F3C1
   1F3C5-1F3C6 1F3C8-1F3C9 1F3CD-1F3FA 1F400-1F441 1F444-1F445 1F451-1F465 1F479-1F47B
   1F47D-1F480 1F484 1F488-1F48E 1F490 1F492-1F49F 1F4A1 1F4A3 1F4A5-1F4A9 1F4AB-1F4AE 1F4B0
   1F4B3-1F4FF 1F507-1F516 1F525-1F531 1F54A-1F573 1F576-1F579 1F57B-1F58F 1F591-1F594
   1F597-1F5D3 1F5DC-1F5F3 1F5FA-1F644 1F648-1F64A 1F680-1F6A2 1F6A4-1F6B3 1F6B7-1F6BF
   1F6C1-1F6CB 1F6CD-1F6D7 1F6DC-1F6EC 1F6F0-1F6FC 1F774-1F776 1F77B-1F77F 1F7D5-1F7D9
   1F7E0-1F7EB 1F7F0 1F8B0-1F8B1 1F90D-1F90E 1F910-1F917 1F920-1F925 1F927-1F92F 1F93A-1F93B
   1F93F-1F976 1F978-1F9B4 1F9B7 1F9BA 1F9BC-1F9CC 1F9D0 1F9DE-1F9FF 1FA60-1FA6D 1FA70-1FA7C
   1FA80-1FA88 1FA90-1FABD 1FABF-1FAC2 1FACE-1FADB 1FAE0-1FAE8 20000-2FFFD 30000-3FFFD"

def leadingJamoTable : CodePoints := .ofTable
  "1100-115F A960-A97C"

def vowelJamoTable : CodePoints := .ofTable
  "1160-11A7 D7B0-D7C6"

def trailingJamoTable : CodePoints := .ofTable
  "11A8-11FF D7CB-D7FB"

def regionalIndicatorTable : CodePoints := .ofTable
  "1F1E6-1F1FF"

def table : List (CodePoints × Class) :=
  [(mandatoryTable, .mandatory),
   (carriageReturnTable, .carriageReturn),
   (lineFeedTable, .lineFeed),
   (nextLineTable, .nextLine),
   (spaceTable, .space),
   (zeroWidthSpaceTable, .zeroWidthSpace),
   (joinerTable, .joiner),
   (combiningMarkTable, .combiningMark),
   (wordJoinerTable, .wordJoiner),
   (glueTable, .glue),
   (bothSidesTable, .bothSides),
   (breakAfterTable, .breakAfter),
   (breakBeforeTable, .breakBefore),
   (hyphenTable, .hyphen),
   (contingentTable, .contingent),
   (closingTable, .closing),
   (closingParenthesisTable, .closingParenthesis),
   (exclamationTable, .exclamation),
   (inseparableTable, .inseparable),
   (nonStarterTable, .nonStarter),
   (openingTable, .opening),
   (wideOpeningTable, .wideOpening),
   (quotationTable, .quotation),
   (initialQuotationTable, .initialQuotation),
   (finalQuotationTable, .finalQuotation),
   (infixSeparatorTable, .infixSeparator),
   (numericTable, .numeric),
   (postfixNumericTable, .postfixNumeric),
   (prefixNumericTable, .prefixNumeric),
   (symbolTable, .symbol),
   (emojiBaseTable, .emojiBase),
   (emojiModifierTable, .emojiModifier),
   (reservedEmojiTable, .reservedEmoji),
   (hebrewLetterTable, .hebrewLetter),
   (aksaraTable, .aksara),
   (aksaraStartTable, .aksaraStart),
   (aksaraPrebaseTable, .aksaraPrebase),
   (viramaTable, .virama),
   (viramaFinalTable, .viramaFinal),
   (placeholderTable, .placeholder),
   (ideographicTable, .ideographic),
   (leadingJamoTable, .leadingJamo),
   (vowelJamoTable, .vowelJamo),
   (trailingJamoTable, .trailingJamo),
   (regionalIndicatorTable, .regionalIndicator)]

def classOf (c : Char) : Class :=
  let n := c.toNat
  if 0xAC00 ≤ n && n ≤ 0xD7A3 then
    if (n - 0xAC00) % 28 == 0 then .openSyllable else .closedSyllable
  else
    match table.find? fun (set, _) => set.contains c with
    | some (_, found) => found
    | none => .letter

end CommandLine.Text.LineBreak
