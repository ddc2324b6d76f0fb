import KbmOs.Screen.Model
/-!
# The font

`kernel/font.c`: a bitmap for each supported character, and the table
`font_get_glyph` searches in order. Capitals and lower-case letters have
bitmaps of their own; a Turkish letter has one for both its cases.
-/

namespace KbmOs

def fontGlyphA : Glyph := #v[0x38, 0x44, 0x82, 0x82, 0xfe, 0x82, 0x82, 0x00]
def fontGlyphB : Glyph := #v[0xfc, 0x82, 0x82, 0xfc, 0x82, 0x82, 0xfc, 0x00]
def fontGlyphC : Glyph := #v[0x7c, 0x82, 0x80, 0x80, 0x80, 0x82, 0x7c, 0x00]
def fontGlyphD : Glyph := #v[0xf8, 0x84, 0x82, 0x82, 0x82, 0x84, 0xf8, 0x00]
def fontGlyphE : Glyph := #v[0xfe, 0x80, 0x80, 0xfc, 0x80, 0x80, 0xfe, 0x00]
def fontGlyphF : Glyph := #v[0xfe, 0x80, 0x80, 0xfc, 0x80, 0x80, 0x80, 0x00]
def fontGlyphG : Glyph := #v[0x7c, 0x82, 0x80, 0x9e, 0x82, 0x82, 0x7c, 0x00]
def fontGlyphH : Glyph := #v[0x82, 0x82, 0x82, 0xfe, 0x82, 0x82, 0x82, 0x00]
def fontGlyphI : Glyph := #v[0x7c, 0x10, 0x10, 0x10, 0x10, 0x10, 0x7c, 0x00]
def fontGlyphJ : Glyph := #v[0x3e, 0x08, 0x08, 0x08, 0x88, 0x88, 0x70, 0x00]
def fontGlyphK : Glyph := #v[0x82, 0x84, 0x88, 0xf0, 0x88, 0x84, 0x82, 0x00]
def fontGlyphL : Glyph := #v[0x80, 0x80, 0x80, 0x80, 0x80, 0x80, 0xfe, 0x00]
def fontGlyphM : Glyph := #v[0x82, 0xc6, 0xaa, 0x92, 0x82, 0x82, 0x82, 0x00]
def fontGlyphN : Glyph := #v[0x82, 0xc2, 0xa2, 0x92, 0x8a, 0x86, 0x82, 0x00]
def fontGlyphO : Glyph := #v[0x7c, 0x82, 0x82, 0x82, 0x82, 0x82, 0x7c, 0x00]
def fontGlyphP : Glyph := #v[0xfc, 0x82, 0x82, 0xfc, 0x80, 0x80, 0x80, 0x00]
def fontGlyphQ : Glyph := #v[0x7c, 0x82, 0x82, 0x82, 0x92, 0x8a, 0x7c, 0x02]
def fontGlyphR : Glyph := #v[0xfc, 0x82, 0x82, 0xfc, 0x88, 0x84, 0x82, 0x00]
def fontGlyphS : Glyph := #v[0x7c, 0x82, 0x80, 0x7c, 0x02, 0x82, 0x7c, 0x00]
def fontGlyphT : Glyph := #v[0xfe, 0x10, 0x10, 0x10, 0x10, 0x10, 0x10, 0x00]
def fontGlyphU : Glyph := #v[0x82, 0x82, 0x82, 0x82, 0x82, 0x82, 0x7c, 0x00]
def fontGlyphV : Glyph := #v[0x82, 0x82, 0x82, 0x82, 0x44, 0x28, 0x10, 0x00]
def fontGlyphW : Glyph := #v[0x82, 0x82, 0x82, 0x92, 0xaa, 0xc6, 0x82, 0x00]
def fontGlyphX : Glyph := #v[0x82, 0x44, 0x28, 0x10, 0x28, 0x44, 0x82, 0x00]
def fontGlyphY : Glyph := #v[0x82, 0x44, 0x28, 0x10, 0x10, 0x10, 0x10, 0x00]
def fontGlyphZ : Glyph := #v[0xfe, 0x04, 0x08, 0x10, 0x20, 0x40, 0xfe, 0x00]
def fontGlyphLowerA : Glyph := #v[0x00, 0x00, 0x3c, 0x02, 0x3e, 0x42, 0x3e, 0x00]
def fontGlyphLowerB : Glyph := #v[0x40, 0x40, 0x5c, 0x62, 0x42, 0x62, 0x5c, 0x00]
def fontGlyphLowerC : Glyph := #v[0x00, 0x00, 0x3c, 0x42, 0x40, 0x42, 0x3c, 0x00]
def fontGlyphLowerD : Glyph := #v[0x02, 0x02, 0x3a, 0x46, 0x42, 0x46, 0x3a, 0x00]
def fontGlyphLowerE : Glyph := #v[0x00, 0x00, 0x3c, 0x42, 0x7e, 0x40, 0x3c, 0x00]
def fontGlyphLowerF : Glyph := #v[0x0c, 0x10, 0x3c, 0x10, 0x10, 0x10, 0x10, 0x00]
def fontGlyphLowerG : Glyph := #v[0x00, 0x00, 0x3e, 0x42, 0x3e, 0x02, 0x3c, 0x00]
def fontGlyphLowerH : Glyph := #v[0x40, 0x40, 0x5c, 0x62, 0x42, 0x42, 0x42, 0x00]
def fontGlyphLowerI : Glyph := #v[0x10, 0x00, 0x30, 0x10, 0x10, 0x10, 0x38, 0x00]
def fontGlyphLowerJ : Glyph := #v[0x04, 0x00, 0x0c, 0x04, 0x04, 0x44, 0x44, 0x38]
def fontGlyphLowerK : Glyph := #v[0x40, 0x40, 0x44, 0x48, 0x70, 0x48, 0x44, 0x00]
def fontGlyphLowerL : Glyph := #v[0x30, 0x10, 0x10, 0x10, 0x10, 0x10, 0x38, 0x00]
def fontGlyphLowerM : Glyph := #v[0x00, 0x00, 0x6c, 0x92, 0x92, 0x92, 0x92, 0x00]
def fontGlyphLowerN : Glyph := #v[0x00, 0x00, 0x5c, 0x62, 0x42, 0x42, 0x42, 0x00]
def fontGlyphLowerO : Glyph := #v[0x00, 0x00, 0x3c, 0x42, 0x42, 0x42, 0x3c, 0x00]
def fontGlyphLowerP : Glyph := #v[0x00, 0x00, 0x5c, 0x62, 0x5c, 0x40, 0x40, 0x00]
def fontGlyphLowerQ : Glyph := #v[0x00, 0x00, 0x3a, 0x46, 0x3a, 0x02, 0x02, 0x00]
def fontGlyphLowerR : Glyph := #v[0x00, 0x00, 0x5c, 0x62, 0x40, 0x40, 0x40, 0x00]
def fontGlyphLowerS : Glyph := #v[0x00, 0x00, 0x3e, 0x40, 0x3c, 0x02, 0x7c, 0x00]
def fontGlyphLowerT : Glyph := #v[0x10, 0x10, 0x7c, 0x10, 0x10, 0x12, 0x0c, 0x00]
def fontGlyphLowerU : Glyph := #v[0x00, 0x00, 0x42, 0x42, 0x42, 0x46, 0x3a, 0x00]
def fontGlyphLowerV : Glyph := #v[0x00, 0x00, 0x42, 0x42, 0x24, 0x24, 0x18, 0x00]
def fontGlyphLowerW : Glyph := #v[0x00, 0x00, 0x82, 0x92, 0x92, 0xaa, 0x44, 0x00]
def fontGlyphLowerX : Glyph := #v[0x00, 0x00, 0x42, 0x24, 0x18, 0x24, 0x42, 0x00]
def fontGlyphLowerY : Glyph := #v[0x00, 0x00, 0x42, 0x42, 0x3e, 0x02, 0x3c, 0x00]
def fontGlyphLowerZ : Glyph := #v[0x00, 0x00, 0x7e, 0x04, 0x18, 0x20, 0x7e, 0x00]
def fontGlyphZero : Glyph := #v[0x7c, 0x82, 0x86, 0x8a, 0x92, 0xa2, 0x7c, 0x00]
def fontGlyphOne : Glyph := #v[0x10, 0x30, 0x10, 0x10, 0x10, 0x10, 0x7c, 0x00]
def fontGlyphTwo : Glyph := #v[0x7c, 0x82, 0x02, 0x0c, 0x30, 0x40, 0xfe, 0x00]
def fontGlyphThree : Glyph := #v[0x7c, 0x82, 0x02, 0x3c, 0x02, 0x82, 0x7c, 0x00]
def fontGlyphFour : Glyph := #v[0x0c, 0x14, 0x24, 0x44, 0xfe, 0x04, 0x04, 0x00]
def fontGlyphFive : Glyph := #v[0xfe, 0x80, 0x80, 0xfc, 0x02, 0x82, 0x7c, 0x00]
def fontGlyphSix : Glyph := #v[0x3c, 0x40, 0x80, 0xfc, 0x82, 0x82, 0x7c, 0x00]
def fontGlyphSeven : Glyph := #v[0xfe, 0x02, 0x04, 0x08, 0x10, 0x20, 0x20, 0x00]
def fontGlyphEight : Glyph := #v[0x7c, 0x82, 0x82, 0x7c, 0x82, 0x82, 0x7c, 0x00]
def fontGlyphNine : Glyph := #v[0x7c, 0x82, 0x82, 0x7e, 0x02, 0x04, 0x78, 0x00]
def fontGlyphSpace : Glyph := #v[0, 0, 0, 0, 0, 0, 0, 0]
def fontGlyphCCedilla : Glyph := #v[0x7c, 0x82, 0x80, 0x80, 0x80, 0x82, 0x7c, 0x10]
def fontGlyphGBreve : Glyph := #v[0x28, 0x00, 0x7c, 0x82, 0x80, 0x9e, 0x82, 0x7c]
def fontGlyphIDotted : Glyph := #v[0x10, 0x00, 0x7c, 0x10, 0x10, 0x10, 0x10, 0x7c]
def fontGlyphOUmlaut : Glyph := #v[0x24, 0x00, 0x7c, 0x82, 0x82, 0x82, 0x82, 0x7c]
def fontGlyphSCedilla : Glyph := #v[0x7c, 0x82, 0x80, 0x7c, 0x02, 0x82, 0x7c, 0x10]
def fontGlyphUUmlaut : Glyph := #v[0x24, 0x00, 0x82, 0x82, 0x82, 0x82, 0x82, 0x7c]
def fontGlyphPeriod : Glyph := #v[0x00, 0x00, 0x00, 0x00, 0x00, 0x00, 0x18, 0x18]
def fontGlyphComma : Glyph := #v[0x00, 0x00, 0x00, 0x00, 0x00, 0x18, 0x18, 0x20]
def fontGlyphColon : Glyph := #v[0x00, 0x18, 0x18, 0x00, 0x00, 0x18, 0x18, 0x00]
def fontGlyphSemicolon : Glyph := #v[0x00, 0x18, 0x18, 0x00, 0x00, 0x18, 0x18, 0x20]
def fontGlyphMinus : Glyph := #v[0x00, 0x00, 0x00, 0x7e, 0x00, 0x00, 0x00, 0x00]
def fontGlyphUnderscore : Glyph := #v[0x00, 0x00, 0x00, 0x00, 0x00, 0x00, 0x00, 0xfe]
def fontGlyphSlash : Glyph := #v[0x02, 0x04, 0x08, 0x10, 0x20, 0x40, 0x80, 0x00]
def fontGlyphQuestion : Glyph := #v[0x7c, 0x82, 0x02, 0x0c, 0x10, 0x00, 0x10, 0x00]
def fontGlyphPlus : Glyph := #v[0x00, 0x10, 0x10, 0x7c, 0x10, 0x10, 0x00, 0x00]
def fontGlyphEquals : Glyph := #v[0x00, 0x7e, 0x00, 0x7e, 0x00, 0x00, 0x00, 0x00]
def fontGlyphGreater : Glyph := #v[0x40, 0x20, 0x10, 0x08, 0x10, 0x20, 0x40, 0x00]
def fontGlyphLess : Glyph := #v[0x04, 0x08, 0x10, 0x20, 0x10, 0x08, 0x04, 0x00]
def fontGlyphExclamation : Glyph := #v[0x10, 0x10, 0x10, 0x10, 0x10, 0x00, 0x10, 0x00]
def fontGlyphAsterisk : Glyph := #v[0x00, 0x10, 0x54, 0x38, 0x54, 0x10, 0x00, 0x00]

/-- The comparisons of `font_get_glyph`, in order. -/
def fontTable : List (ℕ × Glyph) :=
  [('A'.toNat, fontGlyphA), ('B'.toNat, fontGlyphB), ('C'.toNat, fontGlyphC),
    ('D'.toNat, fontGlyphD), ('E'.toNat, fontGlyphE), ('F'.toNat, fontGlyphF),
    ('G'.toNat, fontGlyphG), ('H'.toNat, fontGlyphH), ('I'.toNat, fontGlyphI),
    ('J'.toNat, fontGlyphJ), ('K'.toNat, fontGlyphK), ('L'.toNat, fontGlyphL),
    ('M'.toNat, fontGlyphM), ('N'.toNat, fontGlyphN), ('O'.toNat, fontGlyphO),
    ('P'.toNat, fontGlyphP), ('Q'.toNat, fontGlyphQ), ('R'.toNat, fontGlyphR),
    ('S'.toNat, fontGlyphS), ('T'.toNat, fontGlyphT), ('U'.toNat, fontGlyphU),
    ('V'.toNat, fontGlyphV), ('W'.toNat, fontGlyphW), ('X'.toNat, fontGlyphX),
    ('Y'.toNat, fontGlyphY), ('Z'.toNat, fontGlyphZ), ('a'.toNat, fontGlyphLowerA),
    ('b'.toNat, fontGlyphLowerB), ('c'.toNat, fontGlyphLowerC), ('d'.toNat, fontGlyphLowerD),
    ('e'.toNat, fontGlyphLowerE), ('f'.toNat, fontGlyphLowerF), ('g'.toNat, fontGlyphLowerG),
    ('h'.toNat, fontGlyphLowerH), ('i'.toNat, fontGlyphLowerI), ('j'.toNat, fontGlyphLowerJ),
    ('k'.toNat, fontGlyphLowerK), ('l'.toNat, fontGlyphLowerL), ('m'.toNat, fontGlyphLowerM),
    ('n'.toNat, fontGlyphLowerN), ('o'.toNat, fontGlyphLowerO), ('p'.toNat, fontGlyphLowerP),
    ('q'.toNat, fontGlyphLowerQ), ('r'.toNat, fontGlyphLowerR), ('s'.toNat, fontGlyphLowerS),
    ('t'.toNat, fontGlyphLowerT), ('u'.toNat, fontGlyphLowerU), ('v'.toNat, fontGlyphLowerV),
    ('w'.toNat, fontGlyphLowerW), ('x'.toNat, fontGlyphLowerX), ('y'.toNat, fontGlyphLowerY),
    ('z'.toNat, fontGlyphLowerZ), ('0'.toNat, fontGlyphZero), ('1'.toNat, fontGlyphOne),
    ('2'.toNat, fontGlyphTwo), ('3'.toNat, fontGlyphThree), ('4'.toNat, fontGlyphFour),
    ('5'.toNat, fontGlyphFive), ('6'.toNat, fontGlyphSix), ('7'.toNat, fontGlyphSeven),
    ('8'.toNat, fontGlyphEight), ('9'.toNat, fontGlyphNine), (' '.toNat, fontGlyphSpace),
    ('.'.toNat, fontGlyphPeriod), (','.toNat, fontGlyphComma), (':'.toNat, fontGlyphColon),
    (';'.toNat, fontGlyphSemicolon), ('-'.toNat, fontGlyphMinus), ('_'.toNat, fontGlyphUnderscore),
    ('/'.toNat, fontGlyphSlash), ('?'.toNat, fontGlyphQuestion), ('+'.toNat, fontGlyphPlus),
    ('='.toNat, fontGlyphEquals), ('>'.toNat, fontGlyphGreater), ('<'.toNat, fontGlyphLess),
    ('!'.toNat, fontGlyphExclamation), ('*'.toNat, fontGlyphAsterisk),
    (0x00c7, fontGlyphCCedilla), (0x00e7, fontGlyphCCedilla),
    (0x011e, fontGlyphGBreve), (0x011f, fontGlyphGBreve), (0x0130, fontGlyphIDotted),
    (0x0131, fontGlyphI), (0x00d6, fontGlyphOUmlaut), (0x00f6, fontGlyphOUmlaut),
    (0x015e, fontGlyphSCedilla), (0x015f, fontGlyphSCedilla), (0x00dc, fontGlyphUUmlaut),
    (0x00fc, fontGlyphUUmlaut)]

/-- The bitmap of a character, if it has one. -/
def fontGetGlyph (character : ℕ) : Option Glyph := fontTable.lookup character

end KbmOs
