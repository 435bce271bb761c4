import Greenhouse.EventLog
import Greenhouse.IdentityBoots

/-!
# The identity when power is lost

Power may be lost while the identity script runs. The shell truncates
config.conf before sed writes it from the template, so any beginning of it may
be left. A patch is three edits, each of which replaces the file at once. The
next boot that completes takes back the edits of any patches, but only a
template brings back what a cut writing has lost.
-/

namespace Greenhouse.IdentityPowerLoss

open ShellText IniText IniEditing EventLog IdentityPatch IdentityBoots

/-- The edits of a patch, in their order. -/
def edits (i : Identity) : List (Text → Text) :=
  [substituted targetKey i.targetName.text,updated serialKey i.serial.text,
    updated macKey i.mac.text]

/-- A patch that is cut after some edits. -/
def cutPatch (i : Identity) (n : ℕ) (t : Text) : Text :=
  ((edits i).take n).foldl (fun t edit => edit t) t

/-- A start of the device. -/
structure Start where
  boot : Boot
  /-- What the script gets done when power is lost: the truncation and the
  characters that are written, or the edits. -/
  cut : Option ℕ

/-- What a start writes to config.conf from the template. -/
def Start.written (s : Start) : Option (Option Text) :=
  match s.boot.template,s.cut with
  | some t,none => some (some (generated s.boot.identity t))
  | some t,some (n+1) => some (some ((generated s.boot.identity t).take n))
  | _,_ => none

/-- What a start leaves of config.conf. -/
def startStep (config : Option Text) (s : Start) : Option Text :=
  match s.cut with
  | none => bootStep config s.boot
  | some n =>
    match s.boot.template with
    | some _ => s.written.getD config
    | none => config.map (cutPatch s.boot.identity n)

/-- What the last writing from a template has left, or the first config.conf. -/
def lastWritten (config : Option Text) (starts : List Start) : Option Text :=
  lastWrite Start.written config starts

section Patches

/-- A patch makes all edits. -/
theorem cutPatch_all (i : Identity) (n : ℕ) (t : Text) : cutPatch i (n+3) t=patched i t := by
  rw [cutPatch,List.take_of_length_le (Nat.le_add_left 3 n)]
  rfl

/-- A patch takes back the first edits of another one. -/
theorem patched_cutPatch (i j : Identity) (n : ℕ) (t : Text) :
    patched j (cutPatch i n t)=patched j t := by
  have htarget : ∀ s,patched j (substituted targetKey i.targetName.text s)=patched j s := by
    intro s
    rw [patched,substituted_substituted isName_targetKey i.targetName.noSpace j.targetName.noSpace,
      patched]
  have hserial : ∀ s,patched j (updated serialKey i.serial.text s)=patched j s := by
    intro s
    rw [patched,substituted_updated_comm isName_targetKey isName_serialKey (by decide),
      updated_updated isName_serialKey,patched]
  rcases n with _|_|_|n
  · rfl
  · exact htarget t
  · exact (hserial _).trans (htarget t)
  · rw [cutPatch_all,patched_last]

/-- A patch adds no target name. -/
theorem hasKey_targetKey_patched (j : Identity) (t : Text) :
    hasKey targetKey (patched j t)=hasKey targetKey t := by
  rw [patched,hasKey_updated_of_ne isName_macKey isName_targetKey (by decide),
    hasKey_updated_of_ne isName_serialKey isName_targetKey (by decide),
    hasKey_substituted isName_targetKey j.targetName.noSpace]

end Patches

section Steps

variable {s : Start} {b : Boot} {t : Text}

/-- A start without a template writes nothing from one. -/
theorem Start.written_of_none (h : s.boot.template=none) : s.written=none := by
  rw [Start.written,h]

/-- A start without a template patches, maybe not to the end. -/
theorem startStep_of_none (h : s.boot.template=none) (config : Option Text) :
    ∃ n,startStep config s=config.map (cutPatch s.boot.identity n) := by
  cases hcut : s.cut with
  | none =>
    refine ⟨3,?_⟩
    rw [startStep,hcut]
    exact (bootStep_of_none h config).trans
      (congrArg (fun f => config.map f) (funext fun t => (cutPatch_all _ 0 t).symm))
  | some n =>
    refine ⟨n,?_⟩
    rw [startStep,hcut]
    dsimp only
    rw [h]

/-- A start with a template leaves what it writes, or the old file when power is
lost before the truncation. -/
theorem startStep_of_some (h : s.boot.template=some t) (config : Option Text) :
    startStep config s=s.written.getD config := by
  cases hcut : s.cut with
  | none =>
    rw [startStep,hcut,Start.written,h,hcut]
    exact bootStep_of_some h config
  | some n =>
    rw [startStep,hcut]
    dsimp only
    rw [h]

/-- A boot without a template finds what the start before it has written, or
takes back what it has edited. -/
theorem bootStep_startStep (hb : b.template=none) (config : Option Text) (s : Start) :
    bootStep (startStep config s) b=bootStep (s.written.getD config) b := by
  cases hs : s.boot.template with
  | none =>
    obtain ⟨n,hn⟩ := startStep_of_none hs config
    rw [hn,Start.written_of_none hs,Option.getD_none,bootStep_of_none hb,bootStep_of_none hb,
      Option.map_map]
    exact congrArg (fun f => config.map f) (funext fun t => patched_cutPatch _ _ n t)
  | some t => rw [startStep_of_some hs]

end Steps

section Starts

/-- Any starts leave, for a boot that completes, what the last of them that
wrote config.conf from a template has written. -/
theorem bootStep_starts (config : Option Text) (starts : List Start) (b : Boot) :
    bootStep (starts.foldl startStep config) b=bootStep (lastWritten config starts) b := by
  cases hb : b.template with
  | some t => rw [bootStep_of_some hb,bootStep_of_some hb]
  | none =>
    induction starts using List.reverseRecOn with
    | nil => rfl
    | append_singleton starts s ih =>
      rw [List.foldl_concat,bootStep_startStep hb,lastWritten,lastWrite_concat]
      cases s.written with
      | none => exact ih
      | some w => rfl

/-- Whenever power is lost in any starts, the next boot that completes leaves
what it would leave of the last writing from a template, or of the first
config.conf. When that writing was complete, this is what the boot would leave
with its template. Otherwise a boot without a template adds no target name that
the cut writing has lost. -/
theorem power_losses_leave_written (config : Option Text) (starts : List Start) (b : Boot) :
    bootStep (starts.foldl startStep config) b=bootStep (lastWritten config starts) b ∧
      (∀ i t,lastWritten config starts=some (generated i t) → IdentityTemplate t →
        bootStep (starts.foldl startStep config) b=
          bootStep config ⟨b.identity,b.template.or (some t)⟩) ∧
      ∀ t,b.template=none → lastWritten config starts=some t →
        ∃ t',bootStep (starts.foldl startStep config) b=some t' ∧
          hasKey targetKey t'=hasKey targetKey t := by
  have hstarts := bootStep_starts config starts b
  refine ⟨hstarts,fun i t hlast ht => ?_,fun t hb hlast => ?_⟩
  · rw [hstarts,hlast]
    cases hb : b.template with
    | none =>
      rw [bootStep_of_none hb,Option.map_some,patched_generated i b.identity ht]
      exact (bootStep_of_some (b:=⟨b.identity,some t⟩) rfl config).symm
    | some u =>
      rw [bootStep_of_some hb]
      exact (bootStep_of_some (b:=⟨b.identity,some u⟩) rfl config).symm
  · rw [hstarts,hlast,bootStep_of_none hb]
    exact ⟨patched b.identity t,rfl,hasKey_targetKey_patched b.identity t⟩

/-- The starts of a card in the other board: power is lost right after the
truncation, then a boot completes. -/
def otherStarts : List Start :=
  [⟨⟨otherBoard,some plainTemplate⟩,some 1⟩,⟨⟨otherBoard,some plainTemplate⟩,none⟩]

/-- A start without a template, where power is lost after the first edit. -/
def cutStart : Start := ⟨movedBoot,some 1⟩

/-- The moved card gets the identity of its board, unless only the cut writing
is left of the template: then config.conf has no target name. -/
theorem power_losses_leave_written_movedCard :
    bootStep ((otherStarts++[cutStart]).foldl startStep none) movedBoot=
        bootStep none ⟨rpi4,some plainTemplate⟩ ∧
      ∃ t,bootStep ((otherStarts.take 1).foldl startStep none) movedBoot=some t ∧
        hasKey targetKey t=false := by
  have hmoved := (power_losses_leave_written none (otherStarts++[cutStart]) movedBoot).2.1
    otherBoard plainTemplate rfl identityTemplate_plain
  have hlost := (power_losses_leave_written none (otherStarts.take 1) movedBoot).2.2 [] rfl rfl
  exact ⟨hmoved,hlost⟩

end Starts

end Greenhouse.IdentityPowerLoss
