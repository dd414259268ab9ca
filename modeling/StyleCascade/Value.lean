import StyleCascade.Number
import StyleCascade.Text.Quoted

/-!
# Values

A declaration gives a property a value of one of five kinds. Comparison follows the kinds: two
numbers are compared by value, as `Single` compares them, and all other values are equal only if
they are the same.
-/

namespace StyleCascade

/-!
## Colors

A color is four channels of one byte. It is written, and can be given, as one word of 32 bits
with the alpha channel highest and then red, green and blue; `ofArgb_argb` and `argb_ofArgb` say
that the word holds exactly the four channels.
-/

/-- A color with an alpha channel; 255 is opaque. -/
structure Color where
  red : UInt8
  green : UInt8
  blue : UInt8
  alpha : UInt8 := 255
  deriving DecidableEq, Repr

namespace Color

def transparent : Color := ⟨0, 0, 0, 0⟩
def white : Color := { red := 255, green := 255, blue := 255 }
def pureRed : Color := { red := 255, green := 0, blue := 0 }
def pureGreen : Color := { red := 0, green := 255, blue := 0 }
def pureBlue : Color := { red := 0, green := 0, blue := 255 }

/-- A color that nobody chose does not show. -/
instance : Inhabited Color := ⟨transparent⟩

/-- The channels of a packed word: its four digits to the base 256. -/
def ofArgb (word : UInt32) : Color where
  alpha := UInt8.ofNat (word.toNat / 0x1000000)
  red := UInt8.ofNat (word.toNat / 0x10000)
  green := UInt8.ofNat (word.toNat / 0x100)
  blue := UInt8.ofNat word.toNat

def argb (c : Color) : UInt32 :=
  UInt32.ofNat
    (c.alpha.toNat * 0x1000000 + c.red.toNat * 0x10000 + c.green.toNat * 0x100 + c.blue.toNat)

theorem toNat_argb (c : Color) :
    c.argb.toNat =
      c.alpha.toNat * 0x1000000 + c.red.toNat * 0x10000 + c.green.toNat * 0x100 + c.blue.toNat := by
  have ha := c.alpha.toNat_lt
  have hr := c.red.toNat_lt
  have hg := c.green.toNat_lt
  have hb := c.blue.toNat_lt
  rw [argb, UInt32.toNat_ofNat', Nat.mod_eq_of_lt]
  omega

theorem argb_ofArgb (word : UInt32) : (ofArgb word).argb = word := by
  have hw := word.toNat_lt
  apply UInt32.toNat_inj.1
  rw [toNat_argb]
  simp only [ofArgb, UInt8.toNat_ofNat']
  omega

theorem ofArgb_argb (c : Color) : ofArgb c.argb = c := by
  obtain ⟨r, g, b, a⟩ := c
  have ha := a.toNat_lt
  have hr := r.toNat_lt
  have hg := g.toNat_lt
  have hb := b.toNat_lt
  simp only [ofArgb, toNat_argb, Color.mk.injEq]
  refine ⟨?_, ?_, ?_, ?_⟩ <;> apply UInt8.toNat_inj.1 <;> rw [UInt8.toNat_ofNat'] <;> omega

/-- The packed word in eight hexadecimal digits. -/
def text (c : Color) : String :=
  let digits := Text.hexadecimal c.argb.toNat
  "#" ++ String.ofList (List.replicate (8 - digits.length) '0') ++ digits

end Color

/-! ## Values and their kinds -/

inductive ValueKind where
  | color
  | number
  | integer
  | string
  | keyword
  deriving DecidableEq, Repr

namespace ValueKind

def name : ValueKind → String
  | color => "color"
  | number => "number"
  | integer => "integer"
  | string => "string"
  | keyword => "keyword"

end ValueKind

inductive Value where
  | color (c : Color)
  /-- Sizes, spacing and opacity. -/
  | number (x : Single)
  /-- Weights of fonts. -/
  | integer (i : Int32)
  /-- Free text. -/
  | string (s : String)
  /-- A word of a closed set. -/
  | keyword (s : String)

namespace Value

def kind : Value → ValueKind
  | color _ => .color
  | number _ => .number
  | integer _ => .integer
  | string _ => .string
  | keyword _ => .keyword

/-- The keyword with a given spelling; the case of ASCII letters does not count. -/
def ofKeyword (s : String) : Value := keyword s.toLower

def color? : Value → Option Color
  | color c => some c
  | _ => none

def number? : Value → Option Single
  | number x => some x
  | _ => none

def integer? : Value → Option Int32
  | integer i => some i
  | _ => none

def string? : Value → Option String
  | string s => some s
  | keyword s => some s
  | _ => none

/-- Comparison of values: numbers by value, all else by identity. -/
instance : BEq Value where
  beq
    | color c, color d => c == d
    | number x, number y => x == y
    | integer i, integer j => i == j
    | string s, string t => s == t
    | keyword s, keyword t => s == t
    | _, _ => false

@[simp] theorem beq_color (c d : Color) : (color c == color d) = (c == d) := rfl
@[simp] theorem beq_number (x y : Single) : (number x == number y) = (x == y) := rfl
@[simp] theorem beq_integer (i j : Int32) : (integer i == integer j) = (i == j) := rfl
@[simp] theorem beq_string (s t : String) : (string s == string t) = (s == t) := rfl
@[simp] theorem beq_keyword (s t : String) : (keyword s == keyword t) = (s == t) := rfl

/-- A value in a style's text. A string stands between marks and is not altered. -/
def text : Value → String
  | color c => c.text
  | number x => x.text
  | integer i => i.toInt.repr
  | string s => "\"" ++ s ++ "\""
  | keyword s => s

end Value
end StyleCascade
