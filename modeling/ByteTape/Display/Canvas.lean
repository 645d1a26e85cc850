import ByteTape.Display.Grid

/-! The screen of a terminal that may refuse to draw. A frame is painted on a working copy
first. Once it is drawn the copy is wiped; a refused frame stays on it, under the next. -/

namespace ByteTape

structure Canvas (width height : Nat) where
  shown : Grid width height
  working : Grid width height
  draws : Nat
  /-- The numbers of the draws that will be refused. -/
  refused : List Nat
  /-- How many of the first frames are kept. -/
  limit : Nat
  /-- The first frames, `none` for a refused one. -/
  frames : Array (Option (Grid width height))

namespace Canvas

variable {width height : Nat}

def blank (width height : Nat) (refused : List Nat) (limit : Nat) : Canvas width height :=
  ⟨.blank width height, .blank width height, 0, refused, limit, #[]⟩

def keep (canvas : Canvas width height) (frame : Option (Grid width height)) :
    Array (Option (Grid width height)) :=
  if canvas.frames.size < canvas.limit then canvas.frames.push frame else canvas.frames

def draw (canvas : Canvas width height) (paint : Grid width height → Grid width height) :
    Except String Unit × Canvas width height :=
  let painted := paint canvas.working
  let draws := canvas.draws + 1
  if canvas.draws ∈ canvas.refused then
    (.error s!"draw {canvas.draws} refused",
      { canvas with working := painted, draws, frames := canvas.keep none })
  else
    (.ok (),
      { canvas with
        shown := painted
        working := .blank width height
        draws
        frames := canvas.keep (some painted) })

end Canvas
end ByteTape
