/-!
# Character codings

The codings that a document may declare, beyond the four that every reader knows. A coding with
one byte for each character is given by the characters of its upper half, `\ufffd` where it has
none; its lower half is ASCII. The others cannot be used for a document, each for a reason of its
own.
-/

namespace LicenseDepot.Markup

/-- What is to be said of a coding. -/
inductive CodingKind
  /-- One byte for each character: the characters of the upper half, and those of ASCII that are
  missing. -/
  | page (upper : String) (missing : List Char)
  /-- One byte for each character, but the marks of ASCII are not in their places alone. -/
  | foreign
  /-- More than one byte for some characters. -/
  | wide
  /-- No coding of text at all. -/
  | transform
  /-- A coding that stops at the first byte past ASCII. -/
  | narrow
  /-- A coding that does not read single bytes. -/
  | refusing

/-- A coding with its names. An alias may also be written with points for underscores. -/
structure Coding where
  aliases : List String
  names : List String
  kind : CodingKind

/-- The upper half of a coding that has none. -/
def noUpperHalf : String :=
  String.ofList (List.replicate 128 '\ufffd')

/-- The upper half of a coding whose bytes are the code points. -/
def sameUpperHalf : String :=
  String.ofList ((List.range 128).map fun n => Char.ofNat (128 + n))

/-- Codings of the international and national standards. -/
def standardPages : List Coding :=
  [
    ⟨["646", "ansi_x3.4_1968", "ansi_x3.4_1986", "ansi_x3_4_1968", "cp367", "cp65001",
      "csascii", "csiso2022jp", "ibm367", "iso2022jp", "iso2022jp_1", "iso2022jp_2",
      "iso2022jp_2004", "iso2022jp_3", "iso2022jp_ext", "iso646_us", "iso_2022_jp",
      "iso_2022_jp_1", "iso_2022_jp_2", "iso_2022_jp_2004", "iso_2022_jp_3", "iso_2022_jp_ext",
      "iso_646.irv_1991", "iso_ir_6", "u8", "us", "us_ascii", "utf", "utf8", "utf8_ucs2",
      "utf8_ucs4"],
      ["ascii", "iso2022_jp", "iso2022_jp_1", "iso2022_jp_2", "iso2022_jp_2004", "iso2022_jp_3",
      "iso2022_jp_ext", "utf_8", "utf_8_sig"], .page noUpperHalf []⟩,
    ⟨["8859", "cp819", "csisolatin1", "ibm819", "iso8859", "iso8859_1", "iso_8859_1",
      "iso_8859_1_1987", "iso_ir_100", "l1", "latin", "latin1"],
      ["charmap", "iso8859_1", "latin_1", "raw_unicode_escape", "unicode_escape"],
      .page sameUpperHalf []⟩,
    ⟨["hz_gb", "hz_gb_2312", "hzgb"],
      ["hz"], .page noUpperHalf ['~']⟩,
    ⟨["csisolatin6", "iso_8859_10", "iso_8859_10_1992", "iso_ir_157", "l6", "latin6"],
      ["iso8859_10"], .page
      ("\x80\x81\x82\x83\x84\x85\x86\x87\x88\x89\x8a\x8b\x8c\x8d\x8e\x8f\x90\x91\x92\x93\x94"
      ++ "\x95\x96\x97\x98\x99\x9a\x9b\x9c\x9d\x9e\x9f\xa0ĄĒĢĪĨĶ§ĻĐŠŦŽ\xadŪŊ°ąēģīĩķ·ļđšŧž―ūŋĀÁÂÃ"
      ++ "ÄÅÆĮČÉĘËĖÍÎÏÐŅŌÓÔÕÖŨØŲÚÛÜÝÞßāáâãäåæįčéęëėíîïðņōóôõöũøųúûüýþĸ")
      []⟩,
    ⟨["iso_8859_11", "iso_8859_11_2001", "thai"],
      ["iso8859_11"], .page
      ("\x80\x81\x82\x83\x84\x85\x86\x87\x88\x89\x8a\x8b\x8c\x8d\x8e\x8f\x90\x91\x92\x93\x94"
      ++ "\x95\x96\x97\x98\x99\x9a\x9b\x9c\x9d\x9e\x9f\xa0กขฃคฅฆงจฉชซฌญฎฏฐฑฒณดตถทธนบปผฝพฟภมยรฤลฦ"
      ++ "วศษสหฬอฮฯะ\u0e31าำ\u0e34\u0e35\u0e36\u0e37\u0e38\u0e39\u0e3a\ufffd\ufffd\ufffd\ufffd฿เ"
      ++ "แโใไๅๆ\u0e47\u0e48\u0e49\u0e4a\u0e4b\u0e4c\u0e4d\u0e4e๏๐๑๒๓๔๕๖๗๘๙๚๛\ufffd\ufffd\ufffd"
      ++ "\ufffd")
      []⟩,
    ⟨["iso_8859_13", "l7", "latin7"],
      ["iso8859_13"], .page
      ("\x80\x81\x82\x83\x84\x85\x86\x87\x88\x89\x8a\x8b\x8c\x8d\x8e\x8f\x90\x91\x92\x93\x94"
      ++ "\x95\x96\x97\x98\x99\x9a\x9b\x9c\x9d\x9e\x9f\xa0”¢£¤„¦§Ø©Ŗ«¬\xad®Æ°±²³“µ¶·ø¹ŗ»¼½¾æĄĮĀĆ"
      ++ "ÄÅĘĒČÉŹĖĢĶĪĻŠŃŅÓŌÕÖ×ŲŁŚŪÜŻŽßąįāćäåęēčéźėģķīļšńņóōõö÷ųłśūüżž’")
      []⟩,
    ⟨["iso_8859_14", "iso_8859_14_1998", "iso_celtic", "iso_ir_199", "l8", "latin8"],
      ["iso8859_14"], .page
      ("\x80\x81\x82\x83\x84\x85\x86\x87\x88\x89\x8a\x8b\x8c\x8d\x8e\x8f\x90\x91\x92\x93\x94"
      ++ "\x95\x96\x97\x98\x99\x9a\x9b\x9c\x9d\x9e\x9f\xa0Ḃḃ£ĊċḊ§Ẁ©ẂḋỲ\xad®ŸḞḟĠġṀṁ¶ṖẁṗẃṠỳẄẅṡÀÁÂÃ"
      ++ "ÄÅÆÇÈÉÊËÌÍÎÏŴÑÒÓÔÕÖṪØÙÚÛÜÝŶßàáâãäåæçèéêëìíîïŵñòóôõöṫøùúûüýŷÿ")
      []⟩,
    ⟨["iso_8859_15", "l9", "latin9"],
      ["iso8859_15"], .page
      ("\x80\x81\x82\x83\x84\x85\x86\x87\x88\x89\x8a\x8b\x8c\x8d\x8e\x8f\x90\x91\x92\x93\x94"
      ++ "\x95\x96\x97\x98\x99\x9a\x9b\x9c\x9d\x9e\x9f\xa0¡¢£€¥Š§š©ª«¬\xad®¯°±²³Žµ¶·ž¹º»ŒœŸ¿ÀÁÂÃ"
      ++ "ÄÅÆÇÈÉÊËÌÍÎÏÐÑÒÓÔÕÖ×ØÙÚÛÜÝÞßàáâãäåæçèéêëìíîïðñòóôõö÷øùúûüýþÿ")
      []⟩,
    ⟨["iso_8859_16", "iso_8859_16_2001", "iso_ir_226", "l10", "latin10"],
      ["iso8859_16"], .page
      ("\x80\x81\x82\x83\x84\x85\x86\x87\x88\x89\x8a\x8b\x8c\x8d\x8e\x8f\x90\x91\x92\x93\x94"
      ++ "\x95\x96\x97\x98\x99\x9a\x9b\x9c\x9d\x9e\x9f\xa0ĄąŁ€„Š§š©Ș«Ź\xadźŻ°±ČłŽ”¶·žčș»ŒœŸżÀÁÂĂ"
      ++ "ÄĆÆÇÈÉÊËÌÍÎÏĐŃÒÓÔŐÖŚŰÙÚÛÜĘȚßàáâăäćæçèéêëìíîïđńòóôőöśűùúûüęțÿ")
      []⟩,
    ⟨["csisolatin2", "iso_8859_2", "iso_8859_2_1987", "iso_ir_101", "l2", "latin2"],
      ["iso8859_2"], .page
      ("\x80\x81\x82\x83\x84\x85\x86\x87\x88\x89\x8a\x8b\x8c\x8d\x8e\x8f\x90\x91\x92\x93\x94"
      ++ "\x95\x96\x97\x98\x99\x9a\x9b\x9c\x9d\x9e\x9f\xa0Ą˘Ł¤ĽŚ§¨ŠŞŤŹ\xadŽŻ°ą˛ł´ľśˇ¸šşťź˝žżŔÁÂĂ"
      ++ "ÄĹĆÇČÉĘËĚÍÎĎĐŃŇÓÔŐÖ×ŘŮÚŰÜÝŢßŕáâăäĺćçčéęëěíîďđńňóôőö÷řůúűüýţ˙")
      []⟩,
    ⟨["csisolatin3", "iso_8859_3", "iso_8859_3_1988", "iso_ir_109", "l3", "latin3"],
      ["iso8859_3"], .page
      ("\x80\x81\x82\x83\x84\x85\x86\x87\x88\x89\x8a\x8b\x8c\x8d\x8e\x8f\x90\x91\x92\x93\x94"
      ++ "\x95\x96\x97\x98\x99\x9a\x9b\x9c\x9d\x9e\x9f\xa0Ħ˘£¤\ufffdĤ§¨İŞĞĴ\xad\ufffdŻ°ħ²³´µĥ·¸ı"
      ++ "şğĵ½\ufffdżÀÁÂ\ufffdÄĊĈÇÈÉÊËÌÍÎÏ\ufffdÑÒÓÔĠÖ×ĜÙÚÛÜŬŜßàáâ\ufffdäċĉçèéêëìíîï\ufffdñòóôġö"
      ++ "÷ĝùúûüŭŝ˙")
      []⟩,
    ⟨["csisolatin4", "iso_8859_4", "iso_8859_4_1988", "iso_ir_110", "l4", "latin4"],
      ["iso8859_4"], .page
      ("\x80\x81\x82\x83\x84\x85\x86\x87\x88\x89\x8a\x8b\x8c\x8d\x8e\x8f\x90\x91\x92\x93\x94"
      ++ "\x95\x96\x97\x98\x99\x9a\x9b\x9c\x9d\x9e\x9f\xa0ĄĸŖ¤ĨĻ§¨ŠĒĢŦ\xadŽ¯°ą˛ŗ´ĩļˇ¸šēģŧŊžŋĀÁÂÃ"
      ++ "ÄÅÆĮČÉĘËĖÍÎĪĐŅŌĶÔÕÖ×ØŲÚÛÜŨŪßāáâãäåæįčéęëėíîīđņōķôõö÷øųúûüũū˙")
      []⟩,
    ⟨["csisolatincyrillic", "cyrillic", "iso_8859_5", "iso_8859_5_1988", "iso_ir_144"],
      ["iso8859_5"], .page
      ("\x80\x81\x82\x83\x84\x85\x86\x87\x88\x89\x8a\x8b\x8c\x8d\x8e\x8f\x90\x91\x92\x93\x94"
      ++ "\x95\x96\x97\x98\x99\x9a\x9b\x9c\x9d\x9e\x9f\xa0ЁЂЃЄЅІЇЈЉЊЋЌ\xadЎЏАБВГДЕЖЗИЙКЛМНОПРСТУ"
      ++ "ФХЦЧШЩЪЫЬЭЮЯабвгдежзийклмнопрстуфхцчшщъыьэюя№ёђѓєѕіїјљњћќ§ўџ")
      []⟩,
    ⟨["arabic", "asmo_708", "csisolatinarabic", "ecma_114", "iso_8859_6", "iso_8859_6_1987",
      "iso_ir_127"],
      ["iso8859_6"], .page
      ("\x80\x81\x82\x83\x84\x85\x86\x87\x88\x89\x8a\x8b\x8c\x8d\x8e\x8f\x90\x91\x92\x93\x94"
      ++ "\x95\x96\x97\x98\x99\x9a\x9b\x9c\x9d\x9e\x9f\xa0\ufffd\ufffd\ufffd¤\ufffd\ufffd\ufffd"
      ++ "\ufffd\ufffd\ufffd\ufffd،\xad\ufffd\ufffd\ufffd\ufffd\ufffd\ufffd\ufffd\ufffd\ufffd"
      ++ "\ufffd\ufffd\ufffd\ufffd\u061b\ufffd\ufffd\ufffd\u061f\ufffd\u0621\u0622\u0623\u0624"
      ++ "\u0625\u0626\u0627\u0628\u0629\u062a\u062b\u062c\u062d\u062e\u062f\u0630\u0631\u0632"
      ++ "\u0633\u0634\u0635\u0636\u0637\u0638\u0639\u063a\ufffd\ufffd\ufffd\ufffd\ufffd\u0640"
      ++ "\u0641\u0642\u0643\u0644\u0645\u0646\u0647\u0648\u0649\u064a\u064b\u064c\u064d\u064e"
      ++ "\u064f\u0650\u0651\u0652\ufffd\ufffd\ufffd\ufffd\ufffd\ufffd\ufffd\ufffd\ufffd\ufffd"
      ++ "\ufffd\ufffd\ufffd")
      []⟩,
    ⟨["csisolatingreek", "ecma_118", "elot_928", "greek", "greek8", "iso_8859_7",
      "iso_8859_7_1987", "iso_ir_126"],
      ["iso8859_7"], .page
      ("\x80\x81\x82\x83\x84\x85\x86\x87\x88\x89\x8a\x8b\x8c\x8d\x8e\x8f\x90\x91\x92\x93\x94"
      ++ "\x95\x96\x97\x98\x99\x9a\x9b\x9c\x9d\x9e\x9f\xa0‘’£€₯¦§¨©ͺ«¬\xad\ufffd―°±²³΄΅Ά·ΈΉΊ»Ό½Ύ"
      ++ "ΏΐΑΒΓΔΕΖΗΘΙΚΛΜΝΞΟΠΡ\ufffdΣΤΥΦΧΨΩΪΫάέήίΰαβγδεζηθικλμνξοπρςστυφχψωϊϋόύώ\ufffd")
      []⟩,
    ⟨["csisolatinhebrew", "hebrew", "iso_8859_8", "iso_8859_8_1988", "iso_ir_138"],
      ["iso8859_8"], .page
      ("\x80\x81\x82\x83\x84\x85\x86\x87\x88\x89\x8a\x8b\x8c\x8d\x8e\x8f\x90\x91\x92\x93\x94"
      ++ "\x95\x96\x97\x98\x99\x9a\x9b\x9c\x9d\x9e\x9f\xa0\ufffd¢£¤¥¦§¨©×«¬\xad®¯°±²³´µ¶·¸¹÷»¼½¾"
      ++ "\ufffd\ufffd\ufffd\ufffd\ufffd\ufffd\ufffd\ufffd\ufffd\ufffd\ufffd\ufffd\ufffd\ufffd"
      ++ "\ufffd\ufffd\ufffd\ufffd\ufffd\ufffd\ufffd\ufffd\ufffd\ufffd\ufffd\ufffd\ufffd\ufffd"
      ++ "\ufffd\ufffd\ufffd\ufffd‗\u05d0\u05d1\u05d2\u05d3\u05d4\u05d5\u05d6\u05d7\u05d8\u05d9"
      ++ "\u05da\u05db\u05dc\u05dd\u05de\u05df\u05e0\u05e1\u05e2\u05e3\u05e4\u05e5\u05e6\u05e7"
      ++ "\u05e8\u05e9\u05ea\ufffd\ufffd\u200e\u200f\ufffd")
      []⟩,
    ⟨["csisolatin5", "iso_8859_9", "iso_8859_9_1989", "iso_ir_148", "l5", "latin5"],
      ["iso8859_9"], .page
      ("\x80\x81\x82\x83\x84\x85\x86\x87\x88\x89\x8a\x8b\x8c\x8d\x8e\x8f\x90\x91\x92\x93\x94"
      ++ "\x95\x96\x97\x98\x99\x9a\x9b\x9c\x9d\x9e\x9f\xa0¡¢£¤¥¦§¨©ª«¬\xad®¯°±²³´µ¶·¸¹º»¼½¾¿ÀÁÂÃ"
      ++ "ÄÅÆÇÈÉÊËÌÍÎÏĞÑÒÓÔÕÖ×ØÙÚÛÜİŞßàáâãäåæçèéêëìíîïğñòóôõö÷øùúûüışÿ")
      []⟩,
    ⟨["iso_ir_166", "tis620", "tis_620_0", "tis_620_2529_0", "tis_620_2529_1"],
      ["tis_620"], .page
      ("\x80\x81\x82\x83\x84\x85\x86\x87\x88\x89\x8a\x8b\x8c\x8d\x8e\x8f\x90\x91\x92\x93\x94"
      ++ "\x95\x96\x97\x98\x99\x9a\x9b\x9c\x9d\x9e\x9f\ufffdกขฃคฅฆงจฉชซฌญฎฏฐฑฒณดตถทธนบปผฝพฟภมยรฤ"
      ++ "ลฦวศษสหฬอฮฯะ\u0e31าำ\u0e34\u0e35\u0e36\u0e37\u0e38\u0e39\u0e3a\ufffd\ufffd\ufffd\ufffd"
      ++ "฿เแโใไๅๆ\u0e47\u0e48\u0e49\u0e4a\u0e4b\u0e4c\u0e4d\u0e4e๏๐๑๒๓๔๕๖๗๘๙๚๛\ufffd\ufffd"
      ++ "\ufffd\ufffd")
      []⟩]

/-- Codings known by a number. -/
def numberedPages : List Coding :=
  [
    ⟨[],
      ["cp1006"], .page
      ("\x80\x81\x82\x83\x84\x85\x86\x87\x88\x89\x8a\x8b\x8c\x8d\x8e\x8f\x90\x91\x92\x93\x94"
      ++ "\x95\x96\x97\x98\x99\x9a\x9b\x9c\x9d\x9e\x9f\xa0۰۱۲۳۴۵۶۷۸۹،\u061b\xad\u061f\ufe81"
      ++ "\ufe8d\ufe8e\ufe8e\ufe8f\ufe91\ufb56\ufb58\ufe93\ufe95\ufe97\ufb66\ufb68\ufe99\ufe9b"
      ++ "\ufe9d\ufe9f\ufb7a\ufb7c\ufea1\ufea3\ufea5\ufea7\ufea9\ufb84\ufeab\ufead\ufb8c\ufeaf"
      ++ "\ufb8a\ufeb1\ufeb3\ufeb5\ufeb7\ufeb9\ufebb\ufebd\ufebf\ufec1\ufec5\ufec9\ufeca\ufecb"
      ++ "\ufecc\ufecd\ufece\ufecf\ufed0\ufed1\ufed3\ufed5\ufed7\ufed9\ufedb\ufb92\ufb94\ufedd"
      ++ "\ufedf\ufee0\ufee1\ufee3\ufb9e\ufee5\ufee7\ufe85\ufeed\ufba6\ufba8\ufba9\ufbaa\ufe80"
      ++ "\ufe89\ufe8a\ufe8b\ufef1\ufef2\ufef3\ufbb0\ufbae\ufe7c\ufe7d")
      []⟩,
    ⟨["1125", "cp866u", "ibm1125", "ruscii"],
      ["cp1125"], .page
      ("АБВГДЕЖЗИЙКЛМНОПРСТУФХЦЧШЩЪЫЬЭЮЯабвгдежзийклмноп░▒▓│┤╡╢╖╕╣║╗╝╜╛┐└┴┬├─┼╞╟╚╔╩╦╠═╬╧╨╤╥╙╘╒"
      ++ "╓╫╪┘┌█▄▌▐▀рстуфхцчшщъыьэюяЁёҐґЄєІіЇї·√№¤■\xa0")
      []⟩,
    ⟨["1250", "windows_1250"],
      ["cp1250"], .page
      ("€\ufffd‚\ufffd„…†‡\ufffd‰Š‹ŚŤŽŹ\ufffd‘’“”•–—\ufffd™š›śťžź\xa0ˇ˘Ł¤Ą¦§¨©Ş«¬\xad®Ż°±˛ł´µ¶"
      ++ "·¸ąş»Ľ˝ľżŔÁÂĂÄĹĆÇČÉĘËĚÍÎĎĐŃŇÓÔŐÖ×ŘŮÚŰÜÝŢßŕáâăäĺćçčéęëěíîďđńňóôőö÷řůúűüýţ˙")
      []⟩,
    ⟨["1251", "windows_1251"],
      ["cp1251"], .page
      ("ЂЃ‚ѓ„…†‡€‰Љ‹ЊЌЋЏђ‘’“”•–—\ufffd™љ›њќћџ\xa0ЎўЈ¤Ґ¦§Ё©Є«¬\xad®Ї°±Ііґµ¶·ё№є»јЅѕїАБВГДЕЖЗИЙК"
      ++ "ЛМНОПРСТУФХЦЧШЩЪЫЬЭЮЯабвгдежзийклмнопрстуфхцчшщъыьэюя")
      []⟩,
    ⟨["1252", "windows_1252"],
      ["cp1252"], .page
      ("€\ufffd‚ƒ„…†‡ˆ‰Š‹Œ\ufffdŽ\ufffd\ufffd‘’“”•–—˜™š›œ\ufffdžŸ\xa0¡¢£¤¥¦§¨©ª«¬\xad®¯°±²³´µ¶"
      ++ "·¸¹º»¼½¾¿ÀÁÂÃÄÅÆÇÈÉÊËÌÍÎÏÐÑÒÓÔÕÖ×ØÙÚÛÜÝÞßàáâãäåæçèéêëìíîïðñòóôõö÷øùúûüýþÿ")
      []⟩,
    ⟨["1253", "windows_1253"],
      ["cp1253"], .page
      ("€\ufffd‚ƒ„…†‡\ufffd‰\ufffd‹\ufffd\ufffd\ufffd\ufffd\ufffd‘’“”•–—\ufffd™\ufffd›\ufffd"
      ++ "\ufffd\ufffd\ufffd\xa0΅Ά£¤¥¦§¨©\ufffd«¬\xad®―°±²³΄µ¶·ΈΉΊ»Ό½ΎΏΐΑΒΓΔΕΖΗΘΙΚΛΜΝΞΟΠΡ\ufffdΣ"
      ++ "ΤΥΦΧΨΩΪΫάέήίΰαβγδεζηθικλμνξοπρςστυφχψωϊϋόύώ\ufffd")
      []⟩,
    ⟨["1254", "windows_1254"],
      ["cp1254"], .page
      ("€\ufffd‚ƒ„…†‡ˆ‰Š‹Œ\ufffd\ufffd\ufffd\ufffd‘’“”•–—˜™š›œ\ufffd\ufffdŸ\xa0¡¢£¤¥¦§¨©ª«¬"
      ++ "\xad®¯°±²³´µ¶·¸¹º»¼½¾¿ÀÁÂÃÄÅÆÇÈÉÊËÌÍÎÏĞÑÒÓÔÕÖ×ØÙÚÛÜİŞßàáâãäåæçèéêëìíîïğñòóôõö÷øùúûüışÿ")
      []⟩,
    ⟨["1255", "windows_1255"],
      ["cp1255"], .page
      ("€\ufffd‚ƒ„…†‡ˆ‰\ufffd‹\ufffd\ufffd\ufffd\ufffd\ufffd‘’“”•–—˜™\ufffd›\ufffd\ufffd\ufffd"
      ++ "\ufffd\xa0¡¢£₪¥¦§¨©×«¬\xad®¯°±²³´µ¶·¸¹÷»¼½¾¿\u05b0\u05b1\u05b2\u05b3\u05b4\u05b5\u05b6"
      ++ "\u05b7\u05b8\u05b9\ufffd\u05bb\u05bc\u05bd\u05be\u05bf\u05c0\u05c1\u05c2\u05c3\u05f0"
      ++ "\u05f1\u05f2\u05f3\u05f4\ufffd\ufffd\ufffd\ufffd\ufffd\ufffd\ufffd\u05d0\u05d1\u05d2"
      ++ "\u05d3\u05d4\u05d5\u05d6\u05d7\u05d8\u05d9\u05da\u05db\u05dc\u05dd\u05de\u05df\u05e0"
      ++ "\u05e1\u05e2\u05e3\u05e4\u05e5\u05e6\u05e7\u05e8\u05e9\u05ea\ufffd\ufffd\u200e\u200f"
      ++ "\ufffd")
      []⟩,
    ⟨["1256", "windows_1256"],
      ["cp1256"], .page
      ("€\u067e‚ƒ„…†‡ˆ‰\u0679‹Œ\u0686\u0698\u0688\u06af‘’“”•–—\u06a9™\u0691›œ\u200c\u200d"
      ++ "\u06ba\xa0،¢£¤¥¦§¨©\u06be«¬\xad®¯°±²³´µ¶·¸¹\u061b»¼½¾\u061f\u06c1\u0621\u0622\u0623"
      ++ "\u0624\u0625\u0626\u0627\u0628\u0629\u062a\u062b\u062c\u062d\u062e\u062f\u0630\u0631"
      ++ "\u0632\u0633\u0634\u0635\u0636×\u0637\u0638\u0639\u063a\u0640\u0641\u0642\u0643à\u0644"
      ++ "â\u0645\u0646\u0647\u0648çèéêë\u0649\u064aîï\u064b\u064c\u064d\u064eô\u064f\u0650÷"
      ++ "\u0651ù\u0652ûü\u200e\u200f\u06d2")
      []⟩,
    ⟨["1257", "windows_1257"],
      ["cp1257"], .page
      ("€\ufffd‚\ufffd„…†‡\ufffd‰\ufffd‹\ufffd¨ˇ¸\ufffd‘’“”•–—\ufffd™\ufffd›\ufffd¯˛\ufffd\xa0"
      ++ "\ufffd¢£¤\ufffd¦§Ø©Ŗ«¬\xad®Æ°±²³´µ¶·ø¹ŗ»¼½¾æĄĮĀĆÄÅĘĒČÉŹĖĢĶĪĻŠŃŅÓŌÕÖ×ŲŁŚŪÜŻŽßąįāćäåęēčé"
      ++ "źėģķīļšńņóōõö÷ųłśūüżž˙")
      []⟩,
    ⟨["1258", "windows_1258"],
      ["cp1258"], .page
      ("€\ufffd‚ƒ„…†‡ˆ‰\ufffd‹Œ\ufffd\ufffd\ufffd\ufffd‘’“”•–—˜™\ufffd›œ\ufffd\ufffdŸ\xa0¡¢£¤¥"
      ++ "¦§¨©ª«¬\xad®¯°±²³´µ¶·¸¹º»¼½¾¿ÀÁÂĂÄÅÆÇÈÉÊË\u0300ÍÎÏĐÑ\u0309ÓÔƠÖ×ØÙÚÛÜƯ\u0303ßàáâăäåæçèé"
      ++ "êë\u0301íîïđñ\u0323óôơö÷øùúûüư₫ÿ")
      []⟩,
    ⟨["437", "cspc8codepage437", "ibm437"],
      ["cp437"], .page
      ("ÇüéâäàåçêëèïîìÄÅÉæÆôöòûùÿÖÜ¢£¥₧ƒáíóúñÑªº¿⌐¬½¼¡«»░▒▓│┤╡╢╖╕╣║╗╝╜╛┐└┴┬├─┼╞╟╚╔╩╦╠═╬╧╨╤╥╙╘╒"
      ++ "╓╫╪┘┌█▄▌▐▀αßΓπΣσµτΦΘΩδ∞φε∩≡±≥≤⌠⌡÷≈°∙·√ⁿ²■\xa0")
      []⟩,
    ⟨[],
      ["cp720"], .page
      ("\x80\x81éâ\x84à\x86çêëèïî\x8d\x8e\x8f\x90\u0651\u0652ô¤\u0640ûù\u0621\u0622\u0623"
      ++ "\u0624£\u0625\u0626\u0627\u0628\u0629\u062a\u062b\u062c\u062d\u062e\u062f\u0630\u0631"
      ++ "\u0632\u0633\u0634\u0635«»░▒▓│┤╡╢╖╕╣║╗╝╜╛┐└┴┬├─┼╞╟╚╔╩╦╠═╬╧╨╤╥╙╘╒╓╫╪┘┌█▄▌▐▀\u0636\u0637"
      ++ "\u0638\u0639\u063a\u0641µ\u0642\u0643\u0644\u0645\u0646\u0647\u0648\u0649\u064a≡\u064b"
      ++ "\u064c\u064d\u064e\u064f\u0650≈°∙·√ⁿ²■\xa0")
      []⟩,
    ⟨[],
      ["cp737"], .page
      ("ΑΒΓΔΕΖΗΘΙΚΛΜΝΞΟΠΡΣΤΥΦΧΨΩαβγδεζηθικλμνξοπρσςτυφχψ░▒▓│┤╡╢╖╕╣║╗╝╜╛┐└┴┬├─┼╞╟╚╔╩╦╠═╬╧╨╤╥╙╘╒"
      ++ "╓╫╪┘┌█▄▌▐▀ωάέήϊίόύϋώΆΈΉΊΌΎΏ±≥≤ΪΫ÷≈°∙·√ⁿ²■\xa0")
      []⟩,
    ⟨["775", "cspc775baltic", "ibm775"],
      ["cp775"], .page
      ("ĆüéāäģåćłēŖŗīŹÄÅÉæÆōöĢ¢ŚśÖÜø£Ø×¤ĀĪóŻżź”¦©®¬½¼Ł«»░▒▓│┤ĄČĘĖ╣║╗╝ĮŠ┐└┴┬├─┼ŲŪ╚╔╩╦╠═╬Žąčęėįš"
      ++ "ųūž┘┌█▄▌▐▀ÓßŌŃõÕµńĶķĻļņĒŅ’\xad±“¾¶§÷„°∙·¹³²■\xa0")
      []⟩,
    ⟨["850", "cspc850multilingual", "ibm850"],
      ["cp850"], .page
      ("ÇüéâäàåçêëèïîìÄÅÉæÆôöòûùÿÖÜø£Ø×ƒáíóúñÑªº¿®¬½¼¡«»░▒▓│┤ÁÂÀ©╣║╗╝¢¥┐└┴┬├─┼ãÃ╚╔╩╦╠═╬¤ðÐÊËÈı"
      ++ "ÍÎÏ┘┌█▄¦Ì▀ÓßÔÒõÕµþÞÚÛÙýÝ¯´\xad±‗¾¶§÷¸°¨·¹³²■\xa0")
      []⟩,
    ⟨["852", "cspcp852", "ibm852"],
      ["cp852"], .page
      ("ÇüéâäůćçłëŐőîŹÄĆÉĹĺôöĽľŚśÖÜŤťŁ×čáíóúĄąŽžĘę¬źČş«»░▒▓│┤ÁÂĚŞ╣║╗╝Żż┐└┴┬├─┼Ăă╚╔╩╦╠═╬¤đĐĎËďŇ"
      ++ "ÍÎě┘┌█▄ŢŮ▀ÓßÔŃńňŠšŔÚŕŰýÝţ´\xad˝˛ˇ˘§÷¸°¨˙űŘř■\xa0")
      []⟩,
    ⟨["855", "csibm855", "ibm855"],
      ["cp855"], .page
      ("ђЂѓЃёЁєЄѕЅіІїЇјЈљЉњЊћЋќЌўЎџЏюЮъЪаАбБцЦдДеЕфФгГ«»░▒▓│┤хХиИ╣║╗╝йЙ┐└┴┬├─┼кК╚╔╩╦╠═╬¤лЛмМнН"
      ++ "оОп┘┌█▄Пя▀ЯрРсСтТуУжЖвВьЬ№\xadыЫзЗшШэЭщЩчЧ§■\xa0")
      []⟩,
    ⟨[],
      ["cp856"], .page
      ("\u05d0\u05d1\u05d2\u05d3\u05d4\u05d5\u05d6\u05d7\u05d8\u05d9\u05da\u05db\u05dc\u05dd"
      ++ "\u05de\u05df\u05e0\u05e1\u05e2\u05e3\u05e4\u05e5\u05e6\u05e7\u05e8\u05e9\u05ea\ufffd£"
      ++ "\ufffd×\ufffd\ufffd\ufffd\ufffd\ufffd\ufffd\ufffd\ufffd\ufffd\ufffd®¬½¼\ufffd«»░▒▓│┤"
      ++ "\ufffd\ufffd\ufffd©╣║╗╝¢¥┐└┴┬├─┼\ufffd\ufffd╚╔╩╦╠═╬¤\ufffd\ufffd\ufffd\ufffd\ufffd"
      ++ "\ufffd\ufffd\ufffd\ufffd┘┌█▄¦\ufffd▀\ufffd\ufffd\ufffd\ufffd\ufffd\ufffdµ\ufffd\ufffd"
      ++ "\ufffd\ufffd\ufffd\ufffd\ufffd¯´\xad±‗¾¶§÷¸°¨·¹³²■\xa0")
      []⟩,
    ⟨["857", "csibm857", "ibm857"],
      ["cp857"], .page
      ("ÇüéâäàåçêëèïîıÄÅÉæÆôöòûùİÖÜø£ØŞşáíóúñÑĞğ¿®¬½¼¡«»░▒▓│┤ÁÂÀ©╣║╗╝¢¥┐└┴┬├─┼ãÃ╚╔╩╦╠═╬¤ºªÊËÈ"
      ++ "\ufffdÍÎÏ┘┌█▄¦Ì▀ÓßÔÒõÕµ\ufffd×ÚÛÙìÿ¯´\xad±\ufffd¾¶§÷¸°¨·¹³²■\xa0")
      []⟩,
    ⟨["858", "csibm858", "ibm858"],
      ["cp858"], .page
      ("ÇüéâäàåçêëèïîìÄÅÉæÆôöòûùÿÖÜø£Ø×ƒáíóúñÑªº¿®¬½¼¡«»░▒▓│┤ÁÂÀ©╣║╗╝¢¥┐└┴┬├─┼ãÃ╚╔╩╦╠═╬¤ðÐÊËÈ€"
      ++ "ÍÎÏ┘┌█▄¦Ì▀ÓßÔÒõÕµþÞÚÛÙýÝ¯´\xad±‗¾¶§÷¸°¨·¹³²■\xa0")
      []⟩,
    ⟨["860", "csibm860", "ibm860"],
      ["cp860"], .page
      ("ÇüéâãàÁçêÊèÍÔìÃÂÉÀÈôõòÚùÌÕÜ¢£Ù₧ÓáíóúñÑªº¿Ò¬½¼¡«»░▒▓│┤╡╢╖╕╣║╗╝╜╛┐└┴┬├─┼╞╟╚╔╩╦╠═╬╧╨╤╥╙╘╒"
      ++ "╓╫╪┘┌█▄▌▐▀αßΓπΣσµτΦΘΩδ∞φε∩≡±≥≤⌠⌡÷≈°∙·√ⁿ²■\xa0")
      []⟩,
    ⟨["861", "cp_is", "csibm861", "ibm861"],
      ["cp861"], .page
      ("ÇüéâäàåçêëèÐðÞÄÅÉæÆôöþûÝýÖÜø£Ø₧ƒáíóúÁÍÓÚ¿⌐¬½¼¡«»░▒▓│┤╡╢╖╕╣║╗╝╜╛┐└┴┬├─┼╞╟╚╔╩╦╠═╬╧╨╤╥╙╘╒"
      ++ "╓╫╪┘┌█▄▌▐▀αßΓπΣσµτΦΘΩδ∞φε∩≡±≥≤⌠⌡÷≈°∙·√ⁿ²■\xa0")
      []⟩,
    ⟨["862", "cspc862latinhebrew", "ibm862"],
      ["cp862"], .page
      ("\u05d0\u05d1\u05d2\u05d3\u05d4\u05d5\u05d6\u05d7\u05d8\u05d9\u05da\u05db\u05dc\u05dd"
      ++ "\u05de\u05df\u05e0\u05e1\u05e2\u05e3\u05e4\u05e5\u05e6\u05e7\u05e8\u05e9\u05ea¢£¥₧ƒáíó"
      ++ "úñÑªº¿⌐¬½¼¡«»░▒▓│┤╡╢╖╕╣║╗╝╜╛┐└┴┬├─┼╞╟╚╔╩╦╠═╬╧╨╤╥╙╘╒╓╫╪┘┌█▄▌▐▀αßΓπΣσµτΦΘΩδ∞φε∩≡±≥≤⌠⌡÷≈°"
      ++ "∙·√ⁿ²■\xa0")
      []⟩,
    ⟨["863", "csibm863", "ibm863"],
      ["cp863"], .page
      ("ÇüéâÂà¶çêëèïî‗À§ÉÈÊôËÏûù¤ÔÜ¢£ÙÛƒ¦´óú¨¸³¯Î⌐¬½¼¾«»░▒▓│┤╡╢╖╕╣║╗╝╜╛┐└┴┬├─┼╞╟╚╔╩╦╠═╬╧╨╤╥╙╘╒"
      ++ "╓╫╪┘┌█▄▌▐▀αßΓπΣσµτΦΘΩδ∞φε∩≡±≥≤⌠⌡÷≈°∙·√ⁿ²■\xa0")
      []⟩,
    ⟨["865", "csibm865", "ibm865"],
      ["cp865"], .page
      ("ÇüéâäàåçêëèïîìÄÅÉæÆôöòûùÿÖÜø£Ø₧ƒáíóúñÑªº¿⌐¬½¼¡«¤░▒▓│┤╡╢╖╕╣║╗╝╜╛┐└┴┬├─┼╞╟╚╔╩╦╠═╬╧╨╤╥╙╘╒"
      ++ "╓╫╪┘┌█▄▌▐▀αßΓπΣσµτΦΘΩδ∞φε∩≡±≥≤⌠⌡÷≈°∙·√ⁿ²■\xa0")
      []⟩,
    ⟨["866", "csibm866", "ibm866"],
      ["cp866"], .page
      ("АБВГДЕЖЗИЙКЛМНОПРСТУФХЦЧШЩЪЫЬЭЮЯабвгдежзийклмноп░▒▓│┤╡╢╖╕╣║╗╝╜╛┐└┴┬├─┼╞╟╚╔╩╦╠═╬╧╨╤╥╙╘╒"
      ++ "╓╫╪┘┌█▄▌▐▀рстуфхцчшщъыьэюяЁёЄєЇїЎў°∙·√№¤■\xa0")
      []⟩,
    ⟨["869", "cp_gr", "csibm869", "ibm869"],
      ["cp869"], .page
      ("\ufffd\ufffd\ufffd\ufffd\ufffd\ufffdΆ\ufffd·¬¦‘’Έ―ΉΊΪΌ\ufffd\ufffdΎΫ©Ώ²³ά£έήίϊΐόύΑΒΓΔΕ"
      ++ "ΖΗ½ΘΙ«»░▒▓│┤ΚΛΜΝ╣║╗╝ΞΟ┐└┴┬├─┼ΠΡ╚╔╩╦╠═╬ΣΤΥΦΧΨΩαβγ┘┌█▄δε▀ζηθικλμνξοπρσςτ΄\xad±υφχ§ψ΅°¨ωϋ"
      ++ "ΰώ■\xa0")
      []⟩,
    ⟨[],
      ["cp874"], .page
      ("€\ufffd\ufffd\ufffd\ufffd…\ufffd\ufffd\ufffd\ufffd\ufffd\ufffd\ufffd\ufffd\ufffd\ufffd"
      ++ "\ufffd‘’“”•–—\ufffd\ufffd\ufffd\ufffd\ufffd\ufffd\ufffd\ufffd\xa0กขฃคฅฆงจฉชซฌญฎฏฐฑฒณดต"
      ++ "ถทธนบปผฝพฟภมยรฤลฦวศษสหฬอฮฯะ\u0e31าำ\u0e34\u0e35\u0e36\u0e37\u0e38\u0e39\u0e3a\ufffd"
      ++ "\ufffd\ufffd\ufffd฿เแโใไๅๆ\u0e47\u0e48\u0e49\u0e4a\u0e4b\u0e4c\u0e4d\u0e4e๏๐๑๒๓๔๕๖๗๘๙๚"
      ++ "๛\ufffd\ufffd\ufffd\ufffd")
      []⟩]

/-- Codings of particular machines and languages. -/
def otherPages : List Coding :=
  [
    ⟨["cp1051", "ibm1051", "r8", "roman8"],
      ["hp_roman8"], .page
      ("\x80\x81\x82\x83\x84\x85\x86\x87\x88\x89\x8a\x8b\x8c\x8d\x8e\x8f\x90\x91\x92\x93\x94"
      ++ "\x95\x96\x97\x98\x99\x9a\x9b\x9c\x9d\x9e\x9f\xa0ÀÂÈÊËÎÏ´ˋˆ¨˜ÙÛ₤¯Ýý°ÇçÑñ¡¿¤£¥§ƒ¢âêôûáéó"
      ++ "úàèòùäëöüÅîØÆåíøæÄìÖÜÉïßÔÁÃãÐðÍÌÓÒÕõŠšÚŸÿÞþ·µ¶¾—¼½ªº«■»±\ufffd")
      []⟩,
    ⟨["cskoi8r"],
      ["koi8_r"], .page
      ("─│┌┐└┘├┤┬┴┼▀▄█▌▐░▒▓⌠■∙√≈≤≥\xa0⌡°²·÷═║╒ё╓╔╕╖╗╘╙╚╛╜╝╞╟╠╡Ё╢╣╤╥╦╧╨╩╪╫╬©юабцдефгхийклмнопяр"
      ++ "стужвьызшэщчъЮАБЦДЕФГХИЙКЛМНОПЯРСТУЖВЬЫЗШЭЩЧЪ")
      []⟩,
    ⟨[],
      ["koi8_t"], .page
      ("қғ‚Ғ„…†‡\ufffd‰ҳ‹ҲҷҶ\ufffdҚ‘’“”•–—\ufffd™\ufffd›\ufffd\ufffd\ufffd\ufffd\ufffdӯӮё¤ӣ¦§"
      ++ "\ufffd\ufffd\ufffd«¬\xad®\ufffd°±²Ё\ufffdӢ¶·\ufffd№\ufffd»\ufffd\ufffd\ufffd©юабцдефгх"
      ++ "ийклмнопярстужвьызшэщчъЮАБЦДЕФГХИЙКЛМНОПЯРСТУЖВЬЫЗШЭЩЧЪ")
      []⟩,
    ⟨[],
      ["koi8_u"], .page
      ("─│┌┐└┘├┤┬┴┼▀▄█▌▐░▒▓⌠■∙√≈≤≥\xa0⌡°²·÷═║╒ёє╔ії╗╘╙╚╛ґ╝╞╟╠╡ЁЄ╣ІЇ╦╧╨╩╪Ґ╬©юабцдефгхийклмнопяр"
      ++ "стужвьызшэщчъЮАБЦДЕФГХИЙКЛМНОПЯРСТУЖВЬЫЗШЭЩЧЪ")
      []⟩,
    ⟨["kz_1048", "rk1048", "strk1048_2002"],
      ["kz1048"], .page
      ("ЂЃ‚ѓ„…†‡€‰Љ‹ЊҚҺЏђ‘’“”•–—\ufffd™љ›њқһџ\xa0ҰұӘ¤Ө¦§Ё©Ғ«¬\xad®Ү°±Ііөµ¶·ё№ғ»әҢңүАБВГДЕЖЗИЙК"
      ++ "ЛМНОПРСТУФХЦЧШЩЪЫЬЭЮЯабвгдежзийклмнопрстуфхцчшщъыьэюя")
      []⟩,
    ⟨[],
      ["mac_croatian"], .page
      ("ÄÅÇÉÑÖÜáàâäãåçéèêëíìîïñóòôöõúùûü†°¢£§•¶ß®Š™´¨≠ŽØ∞±≤≥∆µ∂∑∏š∫ªºΩžø¿¡¬√ƒ≈Ć«Č…\xa0ÀÃÕŒœĐ—“"
      ++ "”‘’÷◊\uf8ff©⁄€‹›Æ»–·‚„‰ÂćÁčÈÍÎÏÌÓÔđÒÚÛÙıˆ˜¯πË˚¸Êæˇ")
      []⟩,
    ⟨["maccyrillic"],
      ["mac_cyrillic"], .page
      ("АБВГДЕЖЗИЙКЛМНОПРСТУФХЦЧШЩЪЫЬЭЮЯ†°Ґ£§•¶І®©™Ђђ≠Ѓѓ∞±≤≥іµґЈЄєЇїЉљЊњјЅ¬√ƒ≈∆«»…\xa0ЋћЌќѕ–—“"
      ++ "”‘’÷„ЎўЏџ№Ёёяабвгдежзийклмнопрстуфхцчшщъыьэю€")
      []⟩,
    ⟨["macgreek"],
      ["mac_greek"], .page
      ("Ä¹²É³ÖÜ΅àâä΄¨çéèêë£™îï•½‰ôö¦€ùûü†ΓΔΘΛΞΠß®©ΣΪ§≠°·Α±≤≥¥ΒΕΖΗΙΚΜΦΫΨΩάΝ¬ΟΡ≈Τ«»…\xa0ΥΧΆΈœ–―“"
      ++ "”‘’÷ΉΊΌΎέήίόΏύαβψδεφγηιξκλμνοπώρστθωςχυζϊϋΐΰ\xad")
      []⟩,
    ⟨["maciceland"],
      ["mac_iceland"], .page
      ("ÄÅÇÉÑÖÜáàâäãåçéèêëíìîïñóòôöõúùûüÝ°¢£§•¶ß®©™´¨≠ÆØ∞±≤≥¥µ∂∑∏π∫ªºΩæø¿¡¬√ƒ≈∆«»…\xa0ÀÃÕŒœ–—“"
      ++ "”‘’÷◊ÿŸ⁄€ÐðÞþý·‚„‰ÂÊÁËÈÍÎÏÌÓÔ\uf8ffÒÚÛÙıˆ˜¯˘˙˚¸˝˛ˇ")
      []⟩,
    ⟨["mac_centeuro", "maccentraleurope", "maclatin2"],
      ["mac_latin2"], .page
      ("ÄĀāÉĄÖÜáąČäčĆćéŹźĎíďĒēĖóėôöõúĚěü†°Ę£§•¶ß®©™ę¨≠ģĮįĪ≤≥īĶ∂∑łĻļĽľĹĺŅņŃ¬√ńŇ∆«»…\xa0ňŐÕőŌ–—“"
      ++ "”‘’÷◊ōŔŕŘ‹›řŖŗŠ‚„šŚśÁŤťÍŽžŪÓÔūŮÚůŰűŲųÝýķŻŁżĢˇ")
      []⟩,
    ⟨["macintosh", "macroman"],
      ["mac_roman"], .page
      ("ÄÅÇÉÑÖÜáàâäãåçéèêëíìîïñóòôöõúùûü†°¢£§•¶ß®©™´¨≠ÆØ∞±≤≥¥µ∂∑∏π∫ªºΩæø¿¡¬√ƒ≈∆«»…\xa0ÀÃÕŒœ–—“"
      ++ "”‘’÷◊ÿŸ⁄€‹›ﬁﬂ‡·‚„‰ÂÊÁËÈÍÎÏÌÓÔ\uf8ffÒÚÛÙıˆ˜¯˘˙˚¸˝˛ˇ")
      []⟩,
    ⟨[],
      ["mac_romanian"], .page
      ("ÄÅÇÉÑÖÜáàâäãåçéèêëíìîïñóòôöõúùûü†°¢£§•¶ß®©™´¨≠ĂȘ∞±≤≥¥µ∂∑∏π∫ªºΩăș¿¡¬√ƒ≈∆«»…\xa0ÀÃÕŒœ–—“"
      ++ "”‘’÷◊ÿŸ⁄€‹›Țț‡·‚„‰ÂÊÁËÈÍÎÏÌÓÔ\uf8ffÒÚÛÙıˆ˜¯˘˙˚¸˝˛ˇ")
      []⟩,
    ⟨["macturkish"],
      ["mac_turkish"], .page
      ("ÄÅÇÉÑÖÜáàâäãåçéèêëíìîïñóòôöõúùûü†°¢£§•¶ß®©™´¨≠ÆØ∞±≤≥¥µ∂∑∏π∫ªºΩæø¿¡¬√ƒ≈∆«»…\xa0ÀÃÕŒœ–—“"
      ++ "”‘’÷◊ÿŸĞğİıŞş‡·‚„‰ÂÊÁËÈÍÎÏÌÓÔ\uf8ffÒÚÛÙ\uf8a0ˆ˜¯˘˙˚¸˝˛ˇ")
      []⟩,
    ⟨[],
      ["palmos"], .page
      ("€\x81‚ƒ„…†‡ˆ‰Š‹Œ♦♣♥♠‘’“”•–—˜™š\x9bœ\x9d\x9eŸ\xa0¡¢£¤¥¦§¨©ª«¬\xad®¯°±²³´µ¶·¸¹º»¼½¾¿ÀÁÂÃ"
      ++ "ÄÅÆÇÈÉÊËÌÍÎÏÐÑÒÓÔÕÖ×ØÙÚÛÜÝÞßàáâãäåæçèéêëìíîïðñòóôõö÷øùúûüýþÿ")
      []⟩,
    ⟨["cp154", "csptcp154", "cyrillic_asian", "pt154"],
      ["ptcp154"], .page
      ("ҖҒӮғ„…ҶҮҲүҠӢҢҚҺҸҗ‘’“”•–—ҳҷҡӣңқһҹ\xa0ЎўЈӨҘҰ§Ё©Ә«¬ӯ®Ҝ°ұІіҙө¶·ё№ә»јҪҫҝАБВГДЕЖЗИЙКЛМНОПРСТ"
      ++ "УФХЦЧШЩЪЫЬЭЮЯабвгдежзийклмнопрстуфхцчшщъыьэюя")
      []⟩]

/-- Codings that no document can use. -/
def unusableCodings : List Coding :=
  [
    ⟨["037", "1026", "1140", "273", "424", "500", "864", "csibm037", "csibm1026", "csibm273",
      "csibm424", "csibm500", "csibm864", "ebcdic_cp_be", "ebcdic_cp_ca", "ebcdic_cp_ch",
      "ebcdic_cp_he", "ebcdic_cp_nl", "ebcdic_cp_us", "ebcdic_cp_wt", "ibm037", "ibm039",
      "ibm1026", "ibm1140", "ibm273", "ibm424", "ibm500", "ibm864"],
      ["cp037", "cp1026", "cp1140", "cp273", "cp424", "cp500", "cp864", "cp875", "mac_arabic",
      "mac_farsi"], .foreign⟩,
    ⟨["932", "936", "949", "950", "big5_hkscs", "big5_tw", "chinese", "cp1361", "cp936",
      "csbig5", "csiso2022kr", "csiso58gb231280", "csshiftjis", "euc_cn", "euc_jis2004",
      "euccn", "eucgb2312_cn", "eucjis2004", "eucjisx0213", "eucjp", "euckr", "gb18030_2000",
      "gb2312_1980", "gb2312_80", "hkscs", "iso2022kr", "iso_2022_kr", "iso_ir_58", "jisx0213",
      "korean", "ks_c_5601", "ks_c_5601_1987", "ks_x_1001", "ksc5601", "ksx1001", "ms1361",
      "ms932", "ms936", "ms949", "ms950", "ms_kanji", "mskanji", "s_jis", "s_jis_2004",
      "s_jisx0213", "shiftjis", "shiftjis2004", "shiftjisx0213", "sjis", "sjis_2004",
      "sjisx0213", "u16", "u32", "u7", "u_jis", "uhc", "ujis", "unicode_1_1_utf_7",
      "unicodebigunmarked", "unicodelittleunmarked", "utf16", "utf32", "utf7", "utf_16be",
      "utf_16le", "utf_32be", "utf_32le", "x_mac_japanese", "x_mac_korean",
      "x_mac_simp_chinese", "x_mac_trad_chinese"],
      ["big5", "big5hkscs", "cp932", "cp949", "cp950", "euc_jis_2004", "euc_jisx0213", "euc_jp",
      "euc_kr", "gb18030", "gb2312", "gbk", "iso2022_kr", "johab", "shift_jis",
      "shift_jis_2004", "shift_jisx0213", "utf_16", "utf_16_be", "utf_16_le", "utf_32",
      "utf_32_be", "utf_32_le", "utf_7"], .wide⟩,
    ⟨["base64", "base_64", "bz2", "hex", "quopri", "quoted_printable", "quotedprintable",
      "rot13", "uu", "zip", "zlib"],
      ["base64_codec", "bz2_codec", "hex_codec", "quopri_codec", "rot_13", "uu_codec",
      "zlib_codec"], .transform⟩,
    ⟨[],
      ["punycode"], .narrow⟩,
    ⟨[],
      ["idna", "undefined"], .refusing⟩]

/-- All codings that have a name. -/
def codings : List Coding :=
  standardPages ++ numberedPages ++ otherPages ++ unusableCodings

/-- The normal form of a name: lower case, with one underscore for each run of marks between
letters, digits and points. -/
def normalName (name : List Char) : List Char :=
  go false name
where
  /-- Goes on; `gap` says that marks were passed since the last character that was kept. -/
  go (gap : Bool) : List Char → List Char
    | [] => []
    | c :: rest =>
      if c.isAlphanum ∨ c = '.' then
        if gap then '_' :: c.toLower :: go false rest else c.toLower :: go false rest
      else go true rest

/-- The coding of a name. -/
def coding? (name : List Char) : Option Coding :=
  let normal := String.ofList (normalName name)
  let pointless := String.ofList ((normalName name).map fun c => if c = '.' then '_' else c)
  codings.find? fun coding =>
    coding.aliases.contains normal || coding.names.contains normal
      || coding.aliases.contains pointless

end LicenseDepot.Markup
