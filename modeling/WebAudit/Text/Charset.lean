import WebAudit.Text.Slice

/-!
# Names of character sets

A character set has many names. They are compared in lower case, with one underscore for whatever is
neither a letter nor a digit.
-/

namespace WebAudit.Text

def knownCharsets : List String :=
  [
    "037", "1026", "1125", "1140", "1250", "1251", "1252", "1253", "1254", "1255", "1256", "1257",
    "1258", "273", "424", "437", "500", "646", "775", "850", "852", "855", "857", "858", "860",
    "861", "862", "863", "864", "865", "866", "869", "8859", "932", "936", "949", "950",
    "ansi_x3.4_1968", "ansi_x3.4_1986", "ansi_x3_4_1968", "arabic", "ascii", "asmo_708", "base64",
    "base64_codec", "base_64", "big5", "big5_hkscs", "big5_tw", "big5hkscs", "bz2", "bz2_codec",
    "charmap", "chinese", "cp037", "cp1006", "cp1026", "cp1051", "cp1125", "cp1140", "cp1250",
    "cp1251", "cp1252", "cp1253", "cp1254", "cp1255", "cp1256", "cp1257", "cp1258", "cp1361",
    "cp154", "cp273", "cp367", "cp424", "cp437", "cp500", "cp65001", "cp720", "cp737", "cp775",
    "cp819", "cp850", "cp852", "cp855", "cp856", "cp857", "cp858", "cp860", "cp861", "cp862",
    "cp863", "cp864", "cp865", "cp866", "cp866u", "cp869", "cp874", "cp875", "cp932", "cp936",
    "cp949", "cp950", "cp_gr", "cp_is", "csascii", "csbig5", "csibm037", "csibm1026", "csibm273",
    "csibm424", "csibm500", "csibm855", "csibm857", "csibm858", "csibm860", "csibm861", "csibm863",
    "csibm864", "csibm865", "csibm866", "csibm869", "csiso2022jp", "csiso2022kr", "csiso58gb231280",
    "csisolatin1", "csisolatin2", "csisolatin3", "csisolatin4", "csisolatin5", "csisolatin6",
    "csisolatinarabic", "csisolatincyrillic", "csisolatingreek", "csisolatinhebrew", "cskoi8r",
    "cspc775baltic", "cspc850multilingual", "cspc862latinhebrew", "cspc8codepage437", "cspcp852",
    "csptcp154", "csshiftjis", "cyrillic", "cyrillic_asian", "ebcdic_cp_be", "ebcdic_cp_ca",
    "ebcdic_cp_ch", "ebcdic_cp_he", "ebcdic_cp_nl", "ebcdic_cp_us", "ebcdic_cp_wt", "ecma_114",
    "ecma_118", "elot_928", "euc_cn", "euc_jis2004", "euc_jis_2004", "euc_jisx0213", "euc_jp",
    "euc_kr", "euccn", "eucgb2312_cn", "eucjis2004", "eucjisx0213", "eucjp", "euckr", "gb18030",
    "gb18030_2000", "gb2312", "gb2312_1980", "gb2312_80", "gbk", "greek", "greek8", "hebrew", "hex",
    "hex_codec", "hkscs", "hp_roman8", "hz", "hz_gb", "hz_gb_2312", "hzgb", "ibm037", "ibm039",
    "ibm1026", "ibm1051", "ibm1125", "ibm1140", "ibm273", "ibm367", "ibm424", "ibm437", "ibm500",
    "ibm775", "ibm819", "ibm850", "ibm852", "ibm855", "ibm857", "ibm858", "ibm860", "ibm861",
    "ibm862", "ibm863", "ibm864", "ibm865", "ibm866", "ibm869", "idna", "iso2022_jp",
    "iso2022_jp_1", "iso2022_jp_2", "iso2022_jp_2004", "iso2022_jp_3", "iso2022_jp_ext",
    "iso2022_kr", "iso2022jp", "iso2022jp_1", "iso2022jp_2", "iso2022jp_2004", "iso2022jp_3",
    "iso2022jp_ext", "iso2022kr", "iso646_us", "iso8859", "iso8859_1", "iso8859_10", "iso8859_11",
    "iso8859_13", "iso8859_14", "iso8859_15", "iso8859_16", "iso8859_2", "iso8859_3", "iso8859_4",
    "iso8859_5", "iso8859_6", "iso8859_7", "iso8859_8", "iso8859_9", "iso_2022_jp", "iso_2022_jp_1",
    "iso_2022_jp_2", "iso_2022_jp_2004", "iso_2022_jp_3", "iso_2022_jp_ext", "iso_2022_kr",
    "iso_646.irv_1991", "iso_8859_1", "iso_8859_10", "iso_8859_10_1992", "iso_8859_11",
    "iso_8859_11_2001", "iso_8859_13", "iso_8859_14", "iso_8859_14_1998", "iso_8859_15",
    "iso_8859_16", "iso_8859_16_2001", "iso_8859_1_1987", "iso_8859_2", "iso_8859_2_1987",
    "iso_8859_3", "iso_8859_3_1988", "iso_8859_4", "iso_8859_4_1988", "iso_8859_5",
    "iso_8859_5_1988", "iso_8859_6", "iso_8859_6_1987", "iso_8859_7", "iso_8859_7_1987",
    "iso_8859_8", "iso_8859_8_1988", "iso_8859_9", "iso_8859_9_1989", "iso_celtic", "iso_ir_100",
    "iso_ir_101", "iso_ir_109", "iso_ir_110", "iso_ir_126", "iso_ir_127", "iso_ir_138",
    "iso_ir_144", "iso_ir_148", "iso_ir_157", "iso_ir_166", "iso_ir_199", "iso_ir_226", "iso_ir_58",
    "iso_ir_6", "jisx0213", "johab", "koi8_r", "koi8_t", "koi8_u", "korean", "ks_c_5601",
    "ks_c_5601_1987", "ks_x_1001", "ksc5601", "ksx1001", "kz1048", "kz_1048", "l1", "l10", "l2",
    "l3", "l4", "l5", "l6", "l7", "l8", "l9", "latin", "latin1", "latin10", "latin2", "latin3",
    "latin4", "latin5", "latin6", "latin7", "latin8", "latin9", "latin_1", "mac_arabic",
    "mac_centeuro", "mac_croatian", "mac_cyrillic", "mac_farsi", "mac_greek", "mac_iceland",
    "mac_latin2", "mac_roman", "mac_romanian", "mac_turkish", "maccentraleurope", "maccyrillic",
    "macgreek", "maciceland", "macintosh", "maclatin2", "macroman", "macturkish", "ms1361", "ms932",
    "ms936", "ms949", "ms950", "ms_kanji", "mskanji", "palmos", "pt154", "ptcp154", "punycode",
    "quopri", "quopri_codec", "quoted_printable", "quotedprintable", "r8", "raw_unicode_escape",
    "rk1048", "roman8", "rot13", "rot_13", "ruscii", "s_jis", "s_jis_2004", "s_jisx0213",
    "shift_jis", "shift_jis_2004", "shift_jisx0213", "shiftjis", "shiftjis2004", "shiftjisx0213",
    "sjis", "sjis_2004", "sjisx0213", "strk1048_2002", "thai", "tis620", "tis_620", "tis_620_0",
    "tis_620_2529_0", "tis_620_2529_1", "u16", "u32", "u7", "u8", "u_jis", "uhc", "ujis",
    "undefined", "unicode_1_1_utf_7", "unicode_escape", "unicodebigunmarked",
    "unicodelittleunmarked", "us", "us_ascii", "utf", "utf16", "utf32", "utf7", "utf8", "utf8_ucs2",
    "utf8_ucs4", "utf_16", "utf_16_be", "utf_16_le", "utf_16be", "utf_16le", "utf_32", "utf_32_be",
    "utf_32_le", "utf_32be", "utf_32le", "utf_7", "utf_8", "utf_8_sig", "uu", "uu_codec",
    "windows_1250", "windows_1251", "windows_1252", "windows_1253", "windows_1254", "windows_1255",
    "windows_1256", "windows_1257", "windows_1258", "x_mac_japanese", "x_mac_korean",
    "x_mac_simp_chinese", "x_mac_trad_chinese", "zip", "zlib", "zlib_codec"
  ]

/-- Writes letters, digits and points; what stands between them becomes one underscore. -/
def charsetKey : Bool → List Char → List Char
  | _, [] => []
  | gap, c :: cs =>
    if c.isAlphanum || c == '.' then
      if gap then '_' :: c.toLower :: charsetKey false cs else c.toLower :: charsetKey false cs
    else charsetKey true cs

def isKnownCharset (name : String) : Bool :=
  let isPart (c : Char) : Bool := c.isAlphanum || c == '.'
  let key := charsetKey false (name.toList.dropWhile (!isPart ·))
  let bare := key.map fun c => if c == '.' then '_' else c
  knownCharsets.contains (String.ofList key) || knownCharsets.contains (String.ofList bare)

end WebAudit.Text
