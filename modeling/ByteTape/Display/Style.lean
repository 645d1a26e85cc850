/-! Colours and emphasis of a cell on the screen, and the colours of the display. -/

namespace ByteTape

inductive Color where
  | black
  | rgb (red green blue : UInt8)
  deriving DecidableEq, Repr

/-- How a cell is drawn. Where a colour is missing the terminal has its own. -/
structure Style where
  foreground : Option Color
  background : Option Color
  bold : Bool
  reversed : Bool
  deriving DecidableEq, Repr

namespace Style

def plain : Style := ⟨none, none, false, false⟩

/-- The style of a cell that had the style `under` and is drawn on. Colours are replaced by
those given, emphasis is only ever added. -/
def drawnOn (style under : Style) : Style where
  foreground := style.foreground.or under.foreground
  background := style.background.or under.background
  bold := style.bold || under.bold
  reversed := style.reversed || under.reversed

def ink (color : Color) : Style := { plain with foreground := color }

def emphasized (style : Style) : Style := { style with bold := true }

def withInk (style : Style) (color : Color) : Style := { style with foreground := color }

end Style

namespace Theme

def text : Color := .rgb 205 214 244

def primary : Color := .rgb 137 180 250

def secondary : Color := .rgb 250 179 135

def muted : Color := .rgb 108 112 134

def success : Color := .rgb 166 227 161

def error : Color := .rgb 243 139 168

def number : Color := .rgb 250 179 135

def pointer : Color := .rgb 243 139 168

def instruction : Color := .rgb 249 226 175

def focusedBorder : Color := .rgb 249 226 175

def border : Color := .rgb 108 112 134

def bar : Color := .rgb 50 50 70

end Theme
end ByteTape
