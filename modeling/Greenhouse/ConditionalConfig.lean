import Greenhouse.EventLog

/-!
# Configurations with conditional blocks

Of the settings of a key the first one counts. A line may open a block, whose
lines count only where its condition holds, and then in front of those of the
global section. Writers replace the lines that mention a key by a line that
sets it. So the last writer of a key decides, wherever a line mentions it.
-/

namespace Greenhouse.ConditionalConfig

open EventLog

variable {α β ι κ ν : Type*}

/-- What the lines of a configuration say. -/
structure Reader (α κ ν : Type*) where
  /-- The settings that a line makes. -/
  settings : α → List (κ×ν)
  /-- The line opens a block. -/
  opens : α → Bool

/-- The lines in front of the first block. -/
def Reader.globalLines (r : Reader α κ ν) (ls : List α) : List α := ls.takeWhile fun l => !r.opens l

/-- The lines of the blocks whose condition holds. -/
def Reader.blockLines (r : Reader α κ ν) (holds : α → Bool) : Bool → List α → List α
  | _,[] => []
  | applies,l::ls =>
    if r.opens l then r.blockLines holds (holds l) ls
    else if applies then l::r.blockLines holds applies ls
    else r.blockLines holds applies ls

/-- The lines that count, in the order in which they do. -/
def Reader.counted (r : Reader α κ ν) (holds : α → Bool) (ls : List α) : List α :=
  r.blockLines holds false ls++r.globalLines ls

/-- What a line sets a key to. -/
def Reader.setting [DecidableEq κ] (r : Reader α κ ν) (k : κ) (l : α) : Option ν :=
  ((r.settings l).find? fun x => decide (x.1=k)).map Prod.snd

/-- The value of a key, if it is set. -/
def Reader.value [DecidableEq κ] (r : Reader α κ ν) (holds : α → Bool) (k : κ) (ls : List α) :
    Option ν := (r.counted holds ls).findSome? (r.setting k)

/-- How keys are written. -/
structure Writer (ι β α κ ν : Type*) where
  /-- The line is replaced when the key is written. -/
  mentions : ι → α → Bool
  /-- The line that is written. -/
  line : ι → β → α
  /-- The key as it is read. -/
  key : ι → κ
  /-- The argument as it is read. -/
  argument : β → ν

/-- Write one key in a line. -/
def Writer.write (w : Writer ι β α κ ν) (i : ι) (b : β) (l : α) : α :=
  if w.mentions i l then w.line i b else l

/-- Write one key after the other in a line. -/
def Writer.writeAll (w : Writer ι β α κ ν) (ws : List (ι×β)) (l : α) : α :=
  ws.foldl (fun l x => w.write x.1 x.2 l) l

section Reading

variable {r : Reader α κ ν} {holds : α → Bool} {f : α → α} {ls : List α}

end Reading

section Writing

variable {r : Reader α κ ν} {w : Writer ι β α κ ν} {i : ι} {l : α}

end Writing

end Greenhouse.ConditionalConfig
