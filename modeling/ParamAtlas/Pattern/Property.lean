/-
# Names of sets of characters

A set of characters has a property of Unicode, or a value of one.  Letter case,
spaces, `-` and `_` in a name do not matter, nor does `is` in front of it.

| written | set |
| --- | --- |
| name | characters with a property, of a category or of a script |
| property`=`value, property`:`value | characters with that value |
| property`!=`value | characters with another value |

The properties with values are category, script, age and the kinds of breaks.
-/
import ParamAtlas.Text.Pieces

namespace ParamAtlas
namespace Pattern
namespace Property

/-- The words between spaces. -/
def words (s : String) : List String := (Text.pieces ' ' s.toList).map String.ofList

/-- The names of general categories. -/
def categories : List String :=
  words (
    "any ascii assigned c casedletter cc cf closepunctuation cn cntrl co combiningmark " ++
    "connectorpunctuation control currencysymbol dashpunctuation decimalnumber digit " ++
    "enclosingmark finalpunctuation format initialpunctuation l lc letter letternumber " ++
    "lineseparator ll lm lo lowercaseletter lt lu m mark mathsymbol mc me mn " ++
    "modifierletter modifiersymbol n nd nl no nonspacingmark number openpunctuation other " ++
    "otherletter othernumber otherpunctuation othersymbol p paragraphseparator pc pd pe " ++
    "pf pi po privateuse ps punct punctuation s sc separator sk sm so spaceseparator " ++
    "spacingmark symbol titlecaseletter unassigned uppercaseletter z zl zp zs")

/-- The names of scripts. -/
def scripts : List String :=
  words (
    "adlam adlm aghb ahom anatolianhieroglyphs arab arabic armenian armi armn avestan " ++
    "avst bali balinese bamu bamum bass bassavah batak batk beng bengali bhaiksuki bhks " ++
    "bopo bopomofo brah brahmi brai braille bugi buginese buhd buhid cakm " ++
    "canadianaboriginal cans cari carian caucasianalbanian chakma cham cher cherokee " ++
    "chorasmian chrs common copt coptic cpmn cprt cuneiform cypriot cyprominoan cyrillic " ++
    "cyrl deseret deva devanagari diak divesakuru dogr dogra dsrt dupl duployan egyp " ++
    "egyptianhieroglyphs elba elbasan elym elymaic ethi ethiopic gara garay geor georgian " ++
    "glag glagolitic gong gonm goth gothic gran grantha greek grek gujarati gujr gukh " ++
    "gunjalagondi gurmukhi guru gurungkhema han hang hangul hani hanifirohingya hano " ++
    "hanunoo hatr hatran hebr hebrew hira hiragana hluw hmng hmnp hung imperialaramaic " ++
    "inherited inscriptionalpahlavi inscriptionalparthian ital java javanese kaithi kali " ++
    "kana kannada katakana kawi kayahli khar kharoshthi khitansmallscript khmer khmr khoj " ++
    "khojki khudawadi kiratrai kits knda krai kthi lana lao laoo latin latn lepc lepcha " ++
    "limb limbu lina linb lineara linearb lisu lyci lycian lydi lydian mahajani mahj maka " ++
    "makasar malayalam mand mandaic mani manichaean marc marchen masaramgondi medefaidrin " ++
    "medf meeteimayek mend mendekikakui merc mero meroiticcursive meroitichieroglyphs " ++
    "miao mlym modi mong mongolian mro mroo mtei mult multani myanmar mymr nabataean nagm " ++
    "nagmundari nand nandinagari narb nbat newa newtailue nko nkoo nshu nushu " ++
    "nyiakengpuachuehmong ogam ogham olchiki olck oldhungarian olditalic oldnortharabian " ++
    "oldpermic oldpersian oldsogdian oldsoutharabian oldturkic olduyghur olonal onao " ++
    "oriya orkh orya osage osge osma osmanya ougr pahawhhmong palm palmyrene pauc " ++
    "paucinhau perm phag phagspa phli phlp phnx phoenician plrd prti psalterpahlavi qaac " ++
    "qaai rejang rjng rohg runic runr samaritan samr sarb saur saurashtra sgnw sharada " ++
    "shavian shaw shrd sidd siddham signwriting sind sinh sinhala sogd sogdian sogo sora " ++
    "sorasompeng soyo soyombo sund sundanese sunu sunuwar sylo sylotinagri syrc syriac " ++
    "tagalog tagb tagbanwa taile taitham taiviet takr takri tale talu tamil taml tang " ++
    "tangsa tangut tavt telu telugu tfng tglg thaa thaana thai tibetan tibt tifinagh tirh " ++
    "tirhuta tnsa todhri todr toto tulutigalari tutg ugar ugaritic vai vaii vith vithkuqi " ++
    "wancho wara warangciti wcho xpeo xsux yezi yezidi yi yiii zanabazarsquare zanb zinh " ++
    "zyyy")

/-- The names of properties that a character has or has not. -/
def binaries : List String :=
  words (
    "ahex alpha alphabetic asciihexdigit bidic bidicontrol bidim bidimirrored cased " ++
    "caseignorable changeswhencasefolded changeswhencasemapped changeswhenlowercased " ++
    "changeswhentitlecased changeswhenuppercased ci cwcf cwcm cwl cwt cwu dash " ++
    "defaultignorablecodepoint dep deprecated di dia diacritic ebase ecomp emod emoji " ++
    "emojicomponent emojimodifier emojimodifierbase emojipresentation epres ext " ++
    "extendedpictographic extender extpict graphemebase graphemeextend graphemelink " ++
    "grbase grext grlink hex hexdigit hyphen idc idcompatmathcontinue idcompatmathstart " ++
    "idcontinue ideo ideographic ids idsb idsbinaryoperator idst idstart " ++
    "idstrinaryoperator idsu idsunaryoperator joinc joincontrol loe logicalorderexception " ++
    "lower lowercase math mcm modifiercombiningmark nchar noncharactercodepoint oalpha " ++
    "odi ogrext oidc oids olower omath otheralphabetic otherdefaultignorablecodepoint " ++
    "othergraphemeextend otheridcontinue otheridstart otherlowercase othermath " ++
    "otheruppercase oupper patsyn patternsyntax patternwhitespace patws pcm " ++
    "prependedconcatenationmark qmark quotationmark radical regionalindicator ri sd " ++
    "sentenceterminal softdotted space sterm term terminalpunctuation uideo " ++
    "unifiedideograph upper uppercase variationselector vs whitespace wspace xidc " ++
    "xidcontinue xids xidstart")

/-- The names of kinds of characters in graphemes. -/
def graphemeBreaks : List String :=
  words (
    "cn control cr ex extend l lf lv lvt pp prepend regionalindicator ri sm spacingmark t " ++
    "v zwj")

/-- The names of kinds of characters in words. -/
def wordBreaks : List String :=
  words (
    "aletter cr doublequote dq ex extend extendnumlet fo format hebrewletter hl ka " ++
    "katakana le lf mb midletter midnum midnumlet ml mn newline nl nu numeric " ++
    "regionalindicator ri singlequote sq wsegspace zwj")

/-- The names of kinds of characters in sentences. -/
def sentenceBreaks : List String :=
  words (
    "at aterm cl close cr ex extend fo format le lf lo lower nu numeric oletter sc " ++
    "scontinue se sep sp st sterm up upper")

/-- The versions that characters came with. -/
def ages : List String :=
  let versions := words
    ("1.1 2.0 2.1 3.0 3.1 3.2 4.0 4.1 5.0 5.1 5.2 6.0 6.1 6.2 6.3 7.0 8.0 9.0 10.0 11.0 " ++
    "12.0 12.1 13.0 14.0 15.0 15.1 16.0")
  versions ++ versions.map fun v => "v" ++ String.ofList (v.toList.filter (· ≠ '.'))

/-- The values of the property with a name. -/
def values? (name : String) : Option (List String) :=
  if ["gc", "generalcategory"].contains name then some categories
  else if ["sc", "script", "scx", "scriptextensions"].contains name then some scripts
  else if name = "age" then some ages
  else if ["gcb", "graphemeclusterbreak"].contains name then some graphemeBreaks
  else if ["wb", "wordbreak"].contains name then some wordBreaks
  else if ["sb", "sentencebreak"].contains name then some sentenceBreaks
  else none

/-- A name without what does not matter in it. -/
def plain (name : List Char) : String :=
  let letters (cs : List Char) : List Char :=
    (cs.filter fun c => c.toNat < 0x80 && c ≠ ' ' && c ≠ '-' && c ≠ '_').map Char.toLower
  match name with
  | i :: s :: cs =>
    if i.toLower = 'i' && s.toLower = 's' then
      let rest := letters cs
      if rest = ['c'] then "isc" else String.ofList rest
    else String.ofList (letters name)
  | _ => String.ofList (letters name)

/-- Splits a name at the first of some texts that is in it. -/
def splitAt? (mark : List Char) : List Char → Option (List Char × List Char)
  | [] => none
  | c :: cs =>
    if mark.isPrefixOf (c :: cs) then some ([], (c :: cs).drop mark.length)
    else (splitAt? mark cs).map fun (left, right) => (c :: left, right)

/-- Whether a property has a value. -/
def hasValue (name value : List Char) : Bool :=
  ((values? (plain name)).getD []).contains (plain value)

/-- Whether a name is that of a set of characters. -/
def isSet (name : List Char) : Bool :=
  match splitAt? ['!', '='] name <|> splitAt? [':'] name <|> splitAt? ['='] name with
  | some (property, value) => hasValue property value
  | none =>
    let name := plain name
    binaries.contains name || categories.contains name || scripts.contains name

end Property
end Pattern
end ParamAtlas
