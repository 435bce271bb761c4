import Mathlib.Data.List.Basic
import Mathlib.Data.List.Nodup
import Mathlib.Logic.Function.Basic

/-!
# Handing out a shared queue in order

Readers take pages from a set of waiting items and hand them out later, each
at its own time. Items are handed out at most once and never after a strictly
later one, as long as a reader takes its page only while no waiting item has
been handed out or taken by another reader, or is later than an item another
reader has taken.
-/

namespace Greenhouse.SharedQueue

variable {α : Type*}

/-- What readers see of the queue. -/
structure QueueView (α : Type*) where
  /-- Items handed out, in order. -/
  handed : List α
  /-- The page every reader holds. -/
  reads : ℕ → List α
  /-- Items that wait. -/
  waiting : α → Prop
  /-- The first item is strictly earlier than the second. -/
  before : α → α → Prop

/-- Everything handed out or held is in order, and nothing that waits is
earlier, apart from waiting items that are handed out or held themselves. -/
structure Orderly (v : QueueView α) : Prop where
  once : v.handed.Nodup
  ordered : v.handed.Pairwise fun a b => ¬v.before b a
  readOnce : ∀ i,(v.reads i).Nodup
  readOrdered : ∀ i,(v.reads i).Pairwise fun a b => ¬v.before b a
  readNew : ∀ i,∀ a∈v.reads i,a∉v.handed ∧ ∀ h∈v.handed,¬v.before a h
  apart : ∀ i j,i≠j → ∀ a∈v.reads i,∀ b∈v.reads j,a≠b ∧ ¬v.before a b
  waitingNew : ∀ w,v.waiting w → w∉v.handed → ∀ h∈v.handed,¬v.before w h
  waitingRead : ∀ i w,v.waiting w → w∉v.reads i → ∀ a∈v.reads i,¬v.before w a

/-- Nothing has been handed out or taken yet. -/
theorem Orderly.of_untouched {v : QueueView α} (hh : v.handed=[]) (hr : ∀ i,v.reads i=[]) :
    Orderly v := by
  have hnh : ∀ a,a∉v.handed := fun a => hh ▸ List.not_mem_nil
  have hnr : ∀ i a,a∉v.reads i := fun i a => hr i ▸ List.not_mem_nil
  exact
    { once := hh ▸ List.nodup_nil
      ordered := hh ▸ List.Pairwise.nil
      readOnce := fun i => hr i ▸ List.nodup_nil
      readOrdered := fun i => hr i ▸ List.Pairwise.nil
      readNew := fun i a ha => absurd ha (hnr i a)
      apart := fun i _ _ a ha => absurd ha (hnr i a)
      waitingNew := fun _ _ _ h hm => absurd hm (hnh h)
      waitingRead := fun i _ _ _ a ha => absurd ha (hnr i a) }

/-- The condition on a reader that takes a page. -/
def MayTake (v : QueueView α) (i : ℕ) : Prop :=
  ∀ w,v.waiting w → w∉v.handed ∧ ∀ j,j≠i → ∀ b∈v.reads j,b≠w ∧ ¬v.before b w

/-- Readers drop pages, waiting items leave, and new items come in last. -/
theorem Orderly.frame {v v' : QueueView α} (h : Orderly v) (hh : v'.handed=v.handed)
    (hr : ∀ i,v'.reads i=v.reads i ∨ v'.reads i=[])
    (hw : ∀ w,v'.waiting w → v.waiting w ∨ ∀ b,(b∈v.handed ∨ ∃ i,b∈v.reads i) → ¬v'.before w b)
    (hb : ∀ a b,(b∈v.handed ∨ ∃ i,b∈v.reads i) → v'.before a b → v.before a b) :
    Orderly v' := by
  have hsub : ∀ i a,a∈v'.reads i → a∈v.reads i := by
    intro i a ha
    rcases hr i with he|he
    · exact he ▸ ha
    · rw [he] at ha
      exact absurd ha List.not_mem_nil
  have hkeep : ∀ i a,a∈v'.reads i → v'.reads i=v.reads i := by
    intro i a ha
    rcases hr i with he|he
    · exact he
    · rw [he] at ha
      exact absurd ha List.not_mem_nil
  refine ⟨hh ▸ h.once,?_,fun i => ?_,fun i => ?_,?_,?_,?_,?_⟩
  · rw [hh]
    exact h.ordered.imp_of_mem fun ha _ hn hba => hn (hb _ _ (Or.inl ha) hba)
  · rcases hr i with he|he
    · exact he ▸ h.readOnce i
    · exact he ▸ List.nodup_nil
  · rcases hr i with he|he
    · rw [he]
      exact (h.readOrdered i).imp_of_mem fun ha _ hn hba => hn (hb _ _ (Or.inr ⟨i,ha⟩) hba)
    · exact he ▸ List.Pairwise.nil
  · intro i a ha
    obtain ⟨hn,hlt⟩ := h.readNew i a (hsub i a ha)
    rw [hh]
    exact ⟨hn,fun x hx hax => hlt x hx (hb _ _ (Or.inl hx) hax)⟩
  · intro i j hij a ha b hbm
    obtain ⟨hne,hlt⟩ := h.apart i j hij a (hsub i a ha) b (hsub j b hbm)
    exact ⟨hne,fun hab => hlt (hb _ _ (Or.inr ⟨j,hsub j b hbm⟩) hab)⟩
  · intro w hwt hn x hx
    rw [hh] at hn hx
    rcases hw w hwt with hold|hnew
    · exact fun hwx => h.waitingNew w hold hn x hx (hb _ _ (Or.inl hx) hwx)
    · exact hnew x (Or.inl hx)
  · intro i w hwt hn a ha
    have hm : a∈v.handed ∨ ∃ i,a∈v.reads i := Or.inr ⟨i,hsub i a ha⟩
    rcases hw w hwt with hold|hnew
    · rw [hkeep i a ha] at hn
      exact fun hwa => h.waitingRead i w hold hn a (hsub i a ha) (hb _ _ hm hwa)
    · exact hnew a hm

/-- A reader takes the earliest waiting items. -/
theorem Orderly.take {v : QueueView α} {i : ℕ} {page : List α} (h : Orderly v)
    (hmay : MayTake v i) (hnodup : page.Nodup)
    (hsorted : page.Pairwise fun a b => ¬v.before b a) (hmem : ∀ a∈page,v.waiting a)
    (hrest : ∀ w,v.waiting w → w∉page → ∀ a∈page,¬v.before w a) :
    Orderly {v with reads := Function.update v.reads i page} := by
  have hread : ∀ j,j≠i → ∀ a∈page,∀ b∈v.reads j,(a≠b ∧ ¬v.before a b) ∧ ¬v.before b a := by
    intro j hj a ha b hb
    obtain ⟨hne,hlt⟩ := (hmay a (hmem a ha)).2 j hj b hb
    have hnot : a∉v.reads j := fun hin => ((hmay a (hmem a ha)).2 j hj a hin).1 rfl
    exact ⟨⟨hne.symm,h.waitingRead j a (hmem a ha) hnot b hb⟩,hlt⟩
  refine ⟨h.once,h.ordered,fun j => ?_,fun j => ?_,fun j a ha => ?_,fun j k hjk a ha b hb => ?_,
    h.waitingNew,fun j w hw hn a ha => ?_⟩
  · by_cases hj : j=i
    · subst hj
      simpa only [Function.update_self] using hnodup
    · simpa only [Function.update_of_ne hj] using h.readOnce j
  · by_cases hj : j=i
    · subst hj
      simpa only [Function.update_self] using hsorted
    · simpa only [Function.update_of_ne hj] using h.readOrdered j
  · by_cases hj : j=i
    · subst hj
      simp only [Function.update_self] at ha
      have hn := (hmay a (hmem a ha)).1
      exact ⟨hn,h.waitingNew a (hmem a ha) hn⟩
    · simp only [Function.update_of_ne hj] at ha
      exact h.readNew j a ha
  · by_cases hj : j=i
    · subst hj
      simp only [Function.update_self,Function.update_of_ne hjk.symm] at ha hb
      exact (hread k hjk.symm a ha b hb).1
    · by_cases hk : k=i
      · subst hk
        simp only [Function.update_self,Function.update_of_ne hj] at ha hb
        obtain ⟨⟨hne,_⟩,hlt⟩ := hread j hj b hb a ha
        exact ⟨hne.symm,hlt⟩
      · simp only [Function.update_of_ne hj,Function.update_of_ne hk] at ha hb
        exact h.apart j k hjk a ha b hb
  · by_cases hj : j=i
    · subst hj
      simp only [Function.update_self] at hn ha
      exact hrest w hw hn a ha
    · simp only [Function.update_of_ne hj] at hn ha
      exact h.waitingRead j w hw hn a ha

/-- A reader hands out its page. -/
theorem Orderly.handOut {v : QueueView α} (h : Orderly v) (i : ℕ) :
    Orderly {v with
      handed := v.handed++v.reads i,reads := Function.update v.reads i []} := by
  have hupd : ∀ j a,a∈Function.update v.reads i [] j → j≠i ∧ a∈v.reads j := by
    intro j a ha
    by_cases hj : j=i
    · subst hj
      rw [Function.update_self] at ha
      exact absurd ha List.not_mem_nil
    · rw [Function.update_of_ne hj] at ha
      exact ⟨hj,ha⟩
  refine ⟨?_,?_,fun j => ?_,fun j => ?_,fun j a ha => ?_,fun j k hjk a ha b hb => ?_,
    fun w hw hn x hx => ?_,fun j w hw hn a ha => ?_⟩
  · refine List.nodup_append.mpr ⟨h.once,h.readOnce i,fun a ha b hb he => ?_⟩
    exact (h.readNew i b hb).1 (he ▸ ha)
  · exact List.pairwise_append.mpr ⟨h.ordered,h.readOrdered i,fun x hx a ha =>
      (h.readNew i a ha).2 x hx⟩
  · dsimp only
    by_cases hj : j=i
    · subst hj
      rw [Function.update_self]
      exact List.nodup_nil
    · rw [Function.update_of_ne hj]
      exact h.readOnce j
  · dsimp only
    by_cases hj : j=i
    · subst hj
      rw [Function.update_self]
      exact List.Pairwise.nil
    · rw [Function.update_of_ne hj]
      exact h.readOrdered j
  · obtain ⟨hj,ha⟩ := hupd j a ha
    obtain ⟨hn,hlt⟩ := h.readNew j a ha
    constructor
    · intro hm
      rcases List.mem_append.mp hm with hm|hm
      · exact hn hm
      · exact (h.apart j i hj a ha a hm).1 rfl
    · intro x hx
      rcases List.mem_append.mp hx with hx|hx
      · exact hlt x hx
      · exact (h.apart j i hj a ha x hx).2
  · exact h.apart j k hjk a (hupd j a ha).2 b (hupd k b hb).2
  · rcases List.mem_append.mp hx with hx|hx
    · exact h.waitingNew w hw (fun hm => hn (List.mem_append_left _ hm)) x hx
    · exact h.waitingRead i w hw (fun hm => hn (List.mem_append_right _ hm)) x hx
  · obtain ⟨hj,ha⟩ := hupd j a ha
    dsimp only at hn
    rw [Function.update_of_ne hj] at hn
    exact h.waitingRead j w hw hn a ha

end Greenhouse.SharedQueue
