import PasoFrontEnd.Screen.Toolkit

/-!
The colours of the explorer.
-/

namespace PasoFrontEnd.Explorer.Theme

open Screen

def text : Color := .rgb 205 214 244
def blue : Color := .rgb 137 180 250
def orange : Color := .rgb 250 179 135
def grey : Color := .rgb 108 112 134
def green : Color := .rgb 166 227 161
def red : Color := .rgb 243 139 168
def yellow : Color := .rgb 249 226 175
def teal : Color := .rgb 148 226 213
def pink : Color := .rgb 245 194 231

/-- The ground behind the selected row and the status bar. -/
def raised : Color := .rgb 50 50 70

def ink (c : Color) : Style := ⟨some c, none, false⟩

def boldInk (c : Color) : Style := ⟨some c, none, true⟩

def inkOn (fg bg : Color) : Style := ⟨some fg, some bg, false⟩

def boldInkOn (fg bg : Color) : Style := ⟨some fg, some bg, true⟩

def ground : Style := ⟨none, some raised, false⟩

/-- The frame of a pane; that of the pane with the focus stands out. -/
def frame (title : String) (focused : Bool) : Frame :=
  { title, style := if focused then boldInk yellow else ink grey }

end PasoFrontEnd.Explorer.Theme
