import Mathlib.Data.List.Basic
import Mathlib.Data.List.Find
import Mathlib.Data.List.Infix

/-!
# Substitution of placeholders

A text is scanned from the left; where a placeholder begins it is a hit, and
the scan goes on behind it. Elements may carry more than what placeholders are
compared with, so that a text can remember which of its parts are inserted. An
element that no placeholder contains separates a scan into two. A line with
one placeholder between such elements is then rendered alike by one
substitution after the other and by all of them at once, unless a value
contains a placeholder that is substituted later.
-/

namespace Greenhouse.PlaceholderSubstitution

universe u v

variable {α : Type u} {β : Type v}

/-- A part of a scanned text. -/
inductive Token (α : Type u) (β : Type v)
  /-- An element outside every placeholder. -/
  | kept (x : β)
  /-- An occurrence of a placeholder with its replacement. -/
  | hit (placeholder : List α) (replacement : List β) (segment : List β)

/-- A placeholder and its value. -/
abbrev Binding (α : Type u) (β : Type v) := List α×List β

/-- What a token becomes. -/
def Token.output : Token α β → List β
  | kept x => [x]
  | hit _ replacement _ => replacement

/-- The occurrences of placeholders in a scanned text. -/
def segments (tokens : List (Token α β)) : List (List β) :=
  tokens.filterMap fun
    | .kept _ => none
    | .hit _ _ segment => some segment

/-- Text around one place: no element next to the place, and no element of
any placeholder, lets an occurrence reach over from one part to the other. -/
structure Around (view : β → α) (placeholders : List (List α)) (before after : List β) : Prop where
  before_free : ∀ p∈placeholders,¬p<:+:before.map view
  after_free : ∀ p∈placeholders,¬p<:+:after.map view
  before_last : ∀ x,before.getLast? =some x → ∀ p∈placeholders,view x∉p
  after_first : ∀ x,after.head? =some x → ∀ p∈placeholders,view x∉p

/-- An element with a mark, which is true for what is not inserted. -/
abbrev Marked (α : Type u) := α×Bool

/-- The text of a template. -/
def original (t : List α) : List (Marked α) := t.map fun x => (x,true)

/-- A value in a template. -/
def inserted (v : List α) : List (Marked α) := v.map fun x => (x,false)

/-- A binding whose value is marked as inserted. -/
def Binding.marked (b : Binding α α) : Binding α (Marked α) := (b.1,inserted b.2)

/-- A pattern without an element does not reach over it. -/
theorem prefix_append_cons_iff {α : Type*} {p left right : List α} {c : α} (h : c∉p) :
    p<+:left++c::right ↔ p<+:left := by
  constructor
  · intro hp
    rcases List.prefix_or_prefix_of_prefix hp (List.prefix_append left (c::right)) with hp|⟨q,rfl⟩
    · exact hp
    · rw [List.prefix_append_right_inj] at hp
      cases q with
      | nil => rw [List.append_nil]
      | cons d q =>
        obtain ⟨rfl,_⟩ := List.cons_prefix_cons.mp hp
        exact absurd (List.mem_append_right left List.mem_cons_self) h
  · exact fun hp => hp.trans (List.prefix_append _ _)

/-- Fewer placeholders leave the text around a place free. -/
theorem Around.mono {view : β → α} {ps qs : List (List α)} {before after : List β}
    (h : Around view ps before after) (hs : qs⊆ps) : Around view qs before after where
  before_free := fun p hp => h.before_free p (hs hp)
  after_free := fun p hp => h.after_free p (hs hp)
  before_last := fun x hx p hp => h.before_last x hx p (hs hp)
  after_first := fun x hx p hp => h.after_first x hx p (hs hp)

theorem map_fst_original (t : List α) : (original t).map Prod.fst=t := by
  rw [original,List.map_map]
  exact List.map_id t

theorem map_fst_inserted (t : List α) : (inserted t).map Prod.fst=t := by
  rw [inserted,List.map_map]
  exact List.map_id t

/-- The text around a place keeps its marks. -/
theorem Around.original {ps : List (List α)} {before after : List α}
    (h : Around id ps before after) :
    Around Prod.fst ps (original before) (PlaceholderSubstitution.original after) where
  before_free := fun p hp => by
    rw [map_fst_original]
    have hfree := h.before_free p hp
    rwa [List.map_id] at hfree
  after_free := fun p hp => by
    rw [map_fst_original]
    have hfree := h.after_free p hp
    rwa [List.map_id] at hfree
  before_last := by
    intro x hx p hp
    rw [PlaceholderSubstitution.original,List.getLast?_map,Option.map_eq_some_iff] at hx
    obtain ⟨y,hy,rfl⟩ := hx
    exact h.before_last y hy p hp
  after_first := by
    intro x hx p hp
    rw [PlaceholderSubstitution.original,List.head?_map,Option.map_eq_some_iff] at hx
    obtain ⟨y,hy,rfl⟩ := hx
    exact h.after_first y hy p hp

/-- A scan without hits gives the text back and has no segments. -/
theorem kept_text (t : List β) : (t.map (Token.kept (α:=α))).flatMap Token.output=t ∧
    segments (t.map (Token.kept (α:=α)))=[] := by
  constructor
  · rw [List.flatMap_map]
    exact List.flatMap_singleton' t
  · rw [segments,List.filterMap_map]
    exact List.filterMap_eq_nil_iff.mpr fun _ _ => rfl

theorem segments_append (s t : List (Token α β)) : segments (s++t)=segments s++segments t :=
  List.filterMap_append

/-- A relation between each element and the later ones. -/
theorem pairwise_iff_split {R : α → α → Prop} {l : List α} :
    l.Pairwise R ↔ ∀ left x right,l=left++x::right → ∀ y∈right,R x y := by
  constructor
  · rintro h left x right rfl y hy
    exact List.rel_of_pairwise_cons (List.pairwise_append.mp h).2.1 hy
  · intro h
    induction l with
    | nil => exact List.Pairwise.nil
    | cons x l ih =>
      refine List.pairwise_cons.mpr ⟨h [] x l rfl,ih fun left y right he => ?_⟩
      exact h (x::left) y right (congrArg (List.cons x) he)

variable [DecidableEq α]

/-- The first of the placeholders that the text begins with. -/
def bindingAt (view : β → α) (bs : List (Binding α β)) (t : List β) : Option (Binding α β) :=
  bs.find? fun b => b.1.isPrefixOf (t.map view)

/-- Scan a text for the first of the placeholders that begins at each place;
the number counts the elements left of the last hit. -/
def scanFrom (view : β → α) (bs : List (Binding α β)) : ℕ → List β → List (Token α β)
  | _,[] => []
  | k+1,_::t => scanFrom view bs k t
  | 0,x::t =>
    match bindingAt view bs (x::t) with
    | some b => .hit b.1 b.2 ((x::t).take b.1.length)::scanFrom view bs (b.1.length-1) t
    | none => .kept x::scanFrom view bs 0 t

/-- Scan a whole text. -/
def scan (view : β → α) (bs : List (Binding α β)) (t : List β) : List (Token α β) :=
  scanFrom view bs 0 t

/-- All placeholders are substituted at once. -/
def substitute (view : β → α) (bs : List (Binding α β)) (t : List β) : List β :=
  (scan view bs t).flatMap Token.output

/-- The placeholders are substituted one after the other. -/
def substituteEach (view : β → α) : List (Binding α β) → List β → List β
  | [],t => t
  | b::bs,t => substituteEach view bs (substitute view [b] t)

variable {view : β → α} {bs : List (Binding α β)} {b : Binding α β} {t : List β}

section Scan

/-- No placeholder begins the text. -/
theorem bindingAt_eq_none : bindingAt view bs t=none ↔ ∀ b∈bs,¬b.1<+:t.map view := by
  simp only [bindingAt,List.find?_eq_none,List.isPrefixOf_iff_prefix]

/-- A placeholder that begins the text. -/
theorem bindingAt_spec (h : bindingAt view bs t=some b) : b∈bs ∧ b.1<+:t.map view :=
  ⟨List.mem_of_find?_eq_some h,List.isPrefixOf_iff_prefix.mp (List.find?_some h :)⟩

/-- Texts that the same placeholders begin. -/
theorem bindingAt_congr {t' : List β} (h : ∀ b∈bs,b.1<+:t.map view ↔ b.1<+:t'.map view) :
    bindingAt view bs t=bindingAt view bs t' := by
  refine List.find?_congr fun b hb => ?_
  rw [Bool.eq_iff_iff,List.isPrefixOf_iff_prefix,List.isPrefixOf_iff_prefix]
  exact h b hb

/-- The scan keeps an element at which no placeholder begins. -/
theorem scanFrom_kept {x : β} (h : bindingAt view bs (x::t)=none) :
    scanFrom view bs 0 (x::t)=.kept x::scanFrom view bs 0 t := by
  rw [scanFrom,h]

/-- The scan goes on behind a hit. -/
theorem scanFrom_hit {x : β} (h : bindingAt view bs (x::t)=some b) :
    scanFrom view bs 0 (x::t)=
      .hit b.1 b.2 ((x::t).take b.1.length)::scanFrom view bs (b.1.length-1) t := by
  rw [scanFrom,h]

/-- An element that no placeholder contains separates the scan. -/
theorem scanFrom_append_cons {x : β} {left right : List β} {k : ℕ}
    (h : ∀ b∈bs,b.1≠[] ∧ view x∉b.1) (hk : k≤left.length) :
    scanFrom view bs k (left++x::right)=
      scanFrom view bs k left++.kept x::scanFrom view bs 0 right := by
  induction left generalizing k with
  | nil =>
    obtain rfl := Nat.le_zero.mp hk
    refine scanFrom_kept (bindingAt_eq_none.mpr fun b hb hp => ?_)
    obtain ⟨hne,hx⟩ := h b hb
    have hhead : b.1<+:[]++view x::right.map view := hp
    exact hne (List.prefix_nil.mp ((prefix_append_cons_iff hx).mp hhead))
  | cons y left ih =>
    cases k with
    | succ k => exact ih (Nat.le_of_succ_le_succ hk)
    | zero =>
      have hsame : bindingAt view bs (y::(left++x::right))=bindingAt view bs (y::left) := by
        refine bindingAt_congr fun b hb => ?_
        rw [←List.cons_append,List.map_append,List.map_cons]
        exact prefix_append_cons_iff (h b hb).2
      rw [List.cons_append]
      cases hb : bindingAt view bs (y::left) with
      | none =>
        rw [scanFrom_kept (hsame.trans hb),scanFrom_kept hb,ih (Nat.zero_le _)]
        rfl
      | some b =>
        have hlen := (bindingAt_spec hb).2.length_le
        rw [List.length_map,List.length_cons] at hlen
        have hlen' : b.1.length≤(y::left).length := hlen
        have htake : (y::(left++x::right)).take b.1.length=(y::left).take b.1.length :=
          List.take_append_of_le_length hlen'
        rw [scanFrom_hit (hsame.trans hb),scanFrom_hit hb,ih (by omega),htake]
        rfl

/-- A text in which no placeholder occurs has no hit. -/
theorem scanFrom_of_absent (h : ∀ b∈bs,¬b.1<:+:t.map view) :
    scanFrom view bs 0 t=t.map .kept := by
  induction t with
  | nil => rfl
  | cons x t ih =>
    rw [scanFrom_kept (bindingAt_eq_none.mpr fun b hb hp => h b hb hp.isInfix),ih]
    · rfl
    · exact fun b hb hi => h b hb (hi.trans (List.suffix_cons _ _).isInfix)

/-- What has been hit is an occurrence of a placeholder in the text. -/
theorem hit_spec {p : List α} {k : ℕ} {r s : List β}
    (h : Token.hit p r s∈scanFrom view bs k t) : (p,r)∈bs ∧ s.map view=p ∧ s<:+:t := by
  induction t generalizing k with
  | nil => cases k <;> exact absurd h List.not_mem_nil
  | cons x t ih =>
    have htail : ∀ {k},Token.hit p r s∈scanFrom view bs k t →
        (p,r)∈bs ∧ s.map view=p ∧ s<:+:x::t := by
      intro k hk
      obtain ⟨hb,hs,hi⟩ := ih hk
      exact ⟨hb,hs,hi.trans (List.suffix_cons _ _).isInfix⟩
    cases k with
    | succ k => exact htail h
    | zero =>
      cases hb : bindingAt view bs (x::t) with
      | none =>
        rw [scanFrom_kept hb] at h
        rcases List.mem_cons.mp h with h|h
        · cases h
        · exact htail h
      | some b =>
        rw [scanFrom_hit hb] at h
        rcases List.mem_cons.mp h with h|h
        · cases h
          obtain ⟨hmem,hp⟩ := bindingAt_spec hb
          refine ⟨hmem,?_,(List.take_prefix _ _).isInfix⟩
          rw [List.map_take]
          exact (List.prefix_iff_eq_take.mp hp).symm
        · exact htail h

/-- What is kept is an element of the text. -/
theorem kept_spec {y : β} {k : ℕ} (h : Token.kept y∈scanFrom view bs k t) : y∈t := by
  induction t generalizing k with
  | nil => cases k <;> exact absurd h List.not_mem_nil
  | cons x t ih =>
    cases k with
    | succ k => exact List.mem_cons_of_mem _ (ih h)
    | zero =>
      cases hb : bindingAt view bs (x::t) with
      | none =>
        rw [scanFrom_kept hb] at h
        rcases List.mem_cons.mp h with h|h
        · cases h
          exact List.mem_cons_self
        · exact List.mem_cons_of_mem _ (ih h)
      | some b =>
        rw [scanFrom_hit hb] at h
        rcases List.mem_cons.mp h with h|h
        · cases h
        · exact List.mem_cons_of_mem _ (ih h)

/-- A text in which a placeholder occurs has a hit. -/
theorem exists_hit (hb : b∈bs) (hne : b.1≠[]) (h : b.1<:+:t.map view) :
    ∃ p r s,Token.hit p r s∈scanFrom view bs 0 t := by
  induction t with
  | nil => exact absurd (List.infix_nil.mp h) hne
  | cons x t ih =>
    cases hat : bindingAt view bs (x::t) with
    | some b =>
      rw [scanFrom_hit hat]
      exact ⟨_,_,_,List.mem_cons_self⟩
    | none =>
      rw [scanFrom_kept hat]
      rcases List.infix_cons_iff.mp h with hp|hi
      · exact absurd hp (bindingAt_eq_none.mp hat b hb)
      · obtain ⟨p,r,s,hm⟩ := ih hi
        exact ⟨p,r,s,List.mem_cons_of_mem _ hm⟩

/-- A text in which a placeholder occurs has a segment. -/
theorem exists_segment (hb : b∈bs) (hne : b.1≠[]) (h : b.1<:+:t.map view) :
    ∃ s,s∈segments (scan view bs t) := by
  obtain ⟨p,r,s,hm⟩ := exists_hit hb hne h
  exact ⟨s,List.mem_filterMap.mpr ⟨.hit p r s,hm,rfl⟩⟩

/-- A segment is an occurrence of a placeholder in the text. -/
theorem segment_spec {s : List β} (h : s∈segments (scan view bs t)) :
    s.map view∈bs.map Prod.fst ∧ s<:+:t := by
  obtain ⟨token,hm,hsome⟩ := List.mem_filterMap.mp h
  cases token with
  | kept x => cases hsome
  | hit p r s' =>
    obtain rfl := Option.some.inj hsome
    obtain ⟨hb,hmap,hi⟩ := hit_spec hm
    exact ⟨List.mem_map.mpr ⟨_,hb,hmap.symm⟩,hi⟩

/-- A text that is one placeholder is one hit of the first binding of it, when
no other placeholder begins it. -/
theorem scanFrom_self {left right : List (Binding α β)} (hne : t≠[])
    (hb : b.1=t.map view) (hbs : bs=left++b::right) (hleft : ∀ c∈left,¬c.1<+:t.map view) :
    scanFrom view bs 0 t=[.hit b.1 b.2 t] := by
  have hat : bindingAt view bs t=some b := by
    rw [bindingAt,List.find?_eq_some_iff_append]
    refine ⟨List.isPrefixOf_iff_prefix.mpr (hb ▸ List.prefix_refl _),left,right,hbs,?_⟩
    intro c hc
    rw [Bool.not_eq_true',←Bool.not_eq_true,List.isPrefixOf_iff_prefix]
    exact hleft c hc
  have hlen : b.1.length=t.length := by rw [hb,List.length_map]
  have hskip : ∀ s : List β,scanFrom view bs s.length s=[] := by
    intro s
    induction s with
    | nil => rfl
    | cons y s ih => exact ih
  cases t with
  | nil => exact absurd rfl hne
  | cons x t =>
    rw [scanFrom_hit hat,hlen,List.take_length,List.length_cons,Nat.add_sub_cancel,hskip]

end Scan

/-- Substitutions can be made in two rounds. -/
theorem substituteEach_append (cs : List (Binding α β)) :
    substituteEach view (bs++cs) t=substituteEach view cs (substituteEach view bs t) := by
  induction bs generalizing t with
  | nil => rfl
  | cons b bs ih => exact ih

/-- A substitution puts in nothing but values. -/
theorem mem_substitute {y : β} (h : y∈substitute view bs t) : y∈t ∨ ∃ b∈bs,y∈b.2 := by
  obtain ⟨token,hm,hy⟩ := List.mem_flatMap.mp h
  cases token with
  | kept x =>
    obtain rfl := List.mem_singleton.mp hy
    exact Or.inl (kept_spec hm)
  | hit p r s => exact Or.inr ⟨_,(hit_spec hm).1,hy⟩

/-- Nor do substitutions one after the other. -/
theorem mem_substituteEach {y : β} (h : y∈substituteEach view bs t) : y∈t ∨ ∃ b∈bs,y∈b.2 := by
  induction bs generalizing t with
  | nil => exact Or.inl h
  | cons b bs ih =>
    rcases ih h with hy|⟨c,hc,hy⟩
    · rcases mem_substitute hy with hy|⟨c,hc,hy⟩
      · exact Or.inl hy
      · rw [List.mem_singleton.mp hc] at hy
        exact Or.inr ⟨b,List.mem_cons_self,hy⟩
    · exact Or.inr ⟨c,List.mem_cons_of_mem _ hc,hy⟩

section Line

/-- The text around a place is kept. -/
theorem scan_around {before after : List β} (hne : ∀ b∈bs,b.1≠[])
    (h : Around view (bs.map Prod.fst) before after) :
    scan view bs (before++t++after)=before.map .kept++scan view bs t++after.map .kept := by
  have hfree : ∀ {s : List β},(∀ p∈bs.map Prod.fst,¬p<:+:s.map view) →
      scanFrom view bs 0 s=s.map .kept :=
    fun hs => scanFrom_of_absent fun b hb => hs b.1 (List.mem_map_of_mem hb)
  have hright : scan view bs (t++after)=scan view bs t++after.map .kept := by
    cases after with
    | nil => rw [List.append_nil,List.map_nil,List.append_nil]
    | cons x after =>
      have hx : ∀ b∈bs,b.1≠[] ∧ view x∉b.1 := fun b hb =>
        ⟨hne b hb,h.after_first x rfl b.1 (List.mem_map_of_mem hb)⟩
      rw [scan,scanFrom_append_cons hx (Nat.zero_le _),hfree fun p hp hi =>
        h.after_free p hp (hi.trans (List.suffix_cons _ _).isInfix)]
      rfl
  rcases List.eq_nil_or_concat' before with rfl|⟨init,x,rfl⟩
  · exact hright
  · have hx : ∀ b∈bs,b.1≠[] ∧ view x∉b.1 := fun b hb =>
      ⟨hne b hb,h.before_last x List.getLast?_concat b.1 (List.mem_map_of_mem hb)⟩
    have hinit : scanFrom view bs 0 init=init.map .kept := by
      refine hfree fun p hp hi => h.before_free p hp ?_
      rw [List.map_append]
      exact hi.trans (List.prefix_append _ _).isInfix
    have hsplit : init++[x]++t++after=init++x::(t++after) := by
      rw [List.append_assoc,List.append_assoc,List.singleton_append]
    rw [hsplit,scan,scanFrom_append_cons hx (Nat.zero_le _),hinit,←scan,hright,List.map_append,
      List.append_assoc,List.append_assoc]
    rfl

/-- A text without placeholders is not changed. -/
theorem substitute_of_absent (h : ∀ b∈bs,¬b.1<:+:t.map view) : substitute view bs t=t := by
  rw [substitute,scan,scanFrom_of_absent h,List.flatMap_map]
  exact List.flatMap_singleton' t

/-- Substitutions of absent placeholders change nothing. -/
theorem substituteEach_of_absent (h : ∀ b∈bs,¬b.1<:+:t.map view) : substituteEach view bs t=t := by
  induction bs with
  | nil => rfl
  | cons b bs ih =>
    have hb : substitute view [b] t=t := substitute_of_absent fun c hc =>
      (List.mem_singleton.mp hc) ▸ h b List.mem_cons_self
    rw [substituteEach,hb]
    exact ih fun c hc => h c (List.mem_cons_of_mem _ hc)

end Line

section Marked

/-- No substitution hits a part of a value inserted before. -/
def ReplacesOriginal : List (Binding α α) → List (Marked α) → Prop
  | [],_ => True
  | b::bs,t =>
    (∀ s∈segments (scan Prod.fst [Binding.marked b] t),∀ x∈s,x.2=true) ∧
      ReplacesOriginal bs (substitute Prod.fst [Binding.marked b] t)

/-- A scan finds no placeholder in what is left of the template. -/
def NoneLeft (placeholders : List (List α)) (t : List (Marked α)) : Prop :=
  ∀ p∈placeholders,∀ s∈segments (scan Prod.fst [(p,[])] t),∃ x∈s,x.2=false

/-- A line without placeholders, or with one placeholder between elements that
no placeholder contains. -/
def IsLine (placeholders : List (List α)) (l : List α) : Prop :=
  (∀ p∈placeholders,¬p<:+:l) ∨
    ∃ before p after,p∈placeholders ∧ l=before++p++after ∧ Around id placeholders before after

variable {cs left right : List (Binding α α)} {c : Binding α α} {p v before after l : List α}

/-- Marks do not matter to a substitution. -/
theorem map_fst_substitute (cs : List (Binding α α)) (t : List (Marked α)) :
    (substitute Prod.fst (cs.map Binding.marked) t).map Prod.fst=
      substitute id cs (t.map Prod.fst) := by
  have hat : ∀ t : List (Marked α),bindingAt Prod.fst (cs.map Binding.marked) t=
      (bindingAt id cs (t.map Prod.fst)).map Binding.marked := by
    intro t
    rw [bindingAt,bindingAt,List.find?_map,List.map_id]
    rfl
  have hall : ∀ (t : List (Marked α)) (k : ℕ),
      ((scanFrom Prod.fst (cs.map Binding.marked) k t).flatMap Token.output).map Prod.fst=
        (scanFrom id cs k (t.map Prod.fst)).flatMap Token.output := by
    intro t
    induction t with
    | nil => intro k; cases k <;> rfl
    | cons x t ih =>
      intro k
      cases k with
      | succ k => exact ih k
      | zero =>
        have hx := hat (x::t)
        rw [List.map_cons] at hx ⊢
        cases hc : bindingAt id cs (x.1::t.map Prod.fst) with
        | none =>
          rw [hc] at hx
          rw [scanFrom_kept hx,scanFrom_kept hc,List.flatMap_cons,List.flatMap_cons,
            List.map_append,ih]
          rfl
        | some c =>
          rw [hc] at hx
          rw [scanFrom_hit hx,scanFrom_hit hc,List.flatMap_cons,List.flatMap_cons,
            List.map_append,Token.output,Token.output,ih]
          exact congrArg (· ++ _) (map_fst_inserted c.2)
  exact hall t 0

/-- Marks do not matter to the substitutions one after the other. -/
theorem map_fst_substituteEach (cs : List (Binding α α)) (t : List (Marked α)) :
    (substituteEach Prod.fst (cs.map Binding.marked) t).map Prod.fst=
      substituteEach id cs (t.map Prod.fst) := by
  induction cs generalizing t with
  | nil => rfl
  | cons c cs ih =>
    rw [List.map_cons,substituteEach,substituteEach,ih,←map_fst_substitute [c] t]
    rfl

variable {ps : List (List α)} {x : List (Marked α)}

/-- One substitution keeps the text around a place. -/
theorem scan_original_around {b : Binding α (Marked α)} (hne : b.1≠[]) (hb : b.1∈ps)
    (h : Around id ps before after) :
    scan Prod.fst [b] (original before++x++original after)=
      (original before).map .kept++scan Prod.fst [b] x++(original after).map .kept := by
  have haround : Around Prod.fst ([b].map Prod.fst) (original before) (original after) :=
    h.original.mono (List.cons_subset.mpr ⟨hb,List.nil_subset _⟩)
  exact scan_around (fun d hd => (List.mem_singleton.mp hd) ▸ hne) haround

/-- The segments of one substitution are those at the place. -/
theorem segments_original_around {b : Binding α (Marked α)} (hne : b.1≠[]) (hb : b.1∈ps)
    (h : Around id ps before after) :
    segments (scan Prod.fst [b] (original before++x++original after))=
      segments (scan Prod.fst [b] x) := by
  rw [scan_original_around hne hb h,segments_append,segments_append,(kept_text _).2,(kept_text _).2,
    List.nil_append,List.append_nil]

/-- One substitution changes only what stands at the place. -/
theorem substitute_original_around {b : Binding α (Marked α)} (hne : b.1≠[]) (hb : b.1∈ps)
    (h : Around id ps before after) :
    substitute Prod.fst [b] (original before++x++original after)=
      original before++substitute Prod.fst [b] x++original after := by
  rw [substitute,scan_original_around hne hb h,List.flatMap_append,List.flatMap_append,
    (kept_text _).1,(kept_text _).1]
  rfl

/-- A substitution whose placeholder is not in the middle changes nothing. -/
theorem scan_around_free (hne : c.1≠[]) (h : Around id ps before after) (hc : c.1∈ps)
    (hx : ¬c.1<:+:x.map Prod.fst) :
    scan Prod.fst [c.marked] (original before++x++original after)=
      (original before++x++original after).map .kept := by
  have hmid : scan Prod.fst [c.marked] x=x.map .kept :=
    scanFrom_of_absent fun b hb => (List.mem_singleton.mp hb) ▸ hx
  rw [scan_original_around hne hc h,hmid,List.map_append,List.map_append]

/-- What is hit in a value was inserted. -/
theorem exists_inserted_of_segment {bs : List (Binding α (Marked α))} {s : List (Marked α)}
    (hne : ∀ b∈bs,b.1≠[]) (h : s∈segments (scan Prod.fst bs (inserted v))) :
    ∃ y∈s,y.2=false := by
  obtain ⟨hp,hi⟩ := segment_spec h
  obtain ⟨b,hb,he⟩ := List.mem_map.mp hp
  have hs : s≠[] := fun hs => hne b hb (by rw [he,hs,List.map_nil])
  obtain ⟨y,hy⟩ := List.exists_mem_of_ne_nil s hs
  obtain ⟨_,_,rfl⟩ := List.mem_map.mp (hi.subset hy)
  exact ⟨_,hy,rfl⟩

/-- A substitution without a hit can be left out. -/
theorem replacesOriginal_cons_of_kept (cs : List (Binding α α)) {t : List (Marked α)}
    (h : scan Prod.fst [c.marked] t=t.map .kept) :
    (ReplacesOriginal (c::cs) t ↔ ReplacesOriginal cs t) ∧
    substituteEach Prod.fst ((c::cs).map Binding.marked) t=
      substituteEach Prod.fst (cs.map Binding.marked) t := by
  have hsame : substitute Prod.fst [c.marked] t=t := by
    rw [substitute,h]
    exact (kept_text t).1
  constructor
  · rw [ReplacesOriginal,hsame,h,(kept_text t).2]
    exact ⟨And.right,fun hrest => ⟨fun s hs => absurd hs List.not_mem_nil,hrest⟩⟩
  · rw [List.map_cons,substituteEach,hsame]

/-- After the value has been inserted, the rest of the substitutions hits only
the template, and changes nothing, when no later placeholder is in the value. -/
theorem replacesOriginal_inserted (hne : ∀ c∈cs,c.1≠[]) (hcs : ∀ c∈cs,c.1∈ps)
    (h : Around id ps before after) :
    (ReplacesOriginal cs (original before++inserted v++original after) ↔ ∀ c∈cs,¬c.1<:+:v) ∧
    ((∀ c∈cs,¬c.1<:+:v) → substituteEach Prod.fst (cs.map Binding.marked)
      (original before++inserted v++original after)=original before++inserted v++original after) := by
  induction cs with
  | nil => exact ⟨⟨fun _ _ hc => absurd hc List.not_mem_nil,fun _ => trivial⟩,fun _ => rfl⟩
  | cons c cs ih =>
    obtain ⟨ihr,ihs⟩ := ih (fun d hd => hne d (List.mem_cons_of_mem _ hd))
      fun d hd => hcs d (List.mem_cons_of_mem _ hd)
    have hnec := hne c List.mem_cons_self
    have hc := hcs c List.mem_cons_self
    by_cases hv : c.1<:+:v
    · have hno : ¬∀ d∈c::cs,¬d.1<:+:v := fun hall => hall c List.mem_cons_self hv
      refine ⟨⟨fun hr => ?_,fun hall => absurd hall hno⟩,fun hall => absurd hall hno⟩
      have hinfix : c.marked.1<:+:(inserted v).map Prod.fst := by rwa [map_fst_inserted]
      obtain ⟨s,hs⟩ := exists_segment (List.mem_singleton_self c.marked) hnec hinfix
      obtain ⟨y,hy,hfalse⟩ := exists_inserted_of_segment
        (fun b hb => (List.mem_singleton.mp hb) ▸ hnec) hs
      rw [←segments_original_around (b:=c.marked) hnec hc h] at hs
      have htrue := hr.1 s hs y hy
      rw [hfalse] at htrue
      exact absurd htrue Bool.false_ne_true
    · have hkept := scan_around_free hnec h hc (x:=inserted v) (by rwa [map_fst_inserted])
      obtain ⟨hrest,hsame⟩ := replacesOriginal_cons_of_kept cs hkept
      rw [hrest,hsame,ihr,List.forall_mem_cons]
      exact ⟨⟨fun hall => ⟨hv,hall⟩,And.right⟩,fun hall => ihs hall.2⟩

/-- The substitution of the placeholder at its place. -/
theorem scan_place (hne : c.1≠[]) : scan Prod.fst [c.marked] (original c.1)=
    [.hit c.1 (inserted c.2) (original c.1)] := by
  have horiginal : original c.1≠[] := fun he => hne (List.map_eq_nil_iff.mp he)
  have hsplit : [c.marked]=[]++c.marked::[] := rfl
  exact scanFrom_self horiginal (map_fst_original c.1).symm hsplit
    fun d hd => absurd hd List.not_mem_nil

/-- A line with a place hits only the template exactly when the value contains
no later placeholder, and then the value stands in its place. -/
theorem replacesOriginal_place (hne : ∀ d∈left++c::right,d.1≠[])
    (hcs : ∀ d∈left++c::right,d.1∈ps) (h : Around id ps before after)
    (hleft : ∀ d∈left,¬d.1<:+:c.1) :
    (ReplacesOriginal (left++c::right) (original before++original c.1++original after) ↔
      ∀ d∈right,¬d.1<:+:c.2) ∧
    ((∀ d∈right,¬d.1<:+:c.2) → substituteEach Prod.fst ((left++c::right).map Binding.marked)
      (original before++original c.1++original after)=
        original before++inserted c.2++original after) := by
  induction left with
  | nil =>
    have hnec := hne c List.mem_cons_self
    have hc := hcs c List.mem_cons_self
    have hsub : substitute Prod.fst [c.marked] (original before++original c.1++original after)=
        original before++inserted c.2++original after := by
      rw [substitute_original_around (b:=c.marked) hnec hc h,substitute,scan_place hnec,
        List.flatMap_singleton]
      rfl
    have hseg : ∀ s∈segments (scan Prod.fst [c.marked]
        (original before++original c.1++original after)),∀ y∈s,y.2=true := by
      intro s hs y hy
      rw [segments_original_around (b:=c.marked) hnec hc h,scan_place hnec] at hs
      obtain rfl := List.mem_singleton.mp hs
      obtain ⟨_,_,rfl⟩ := List.mem_map.mp hy
      rfl
    obtain ⟨hr,hs⟩ := replacesOriginal_inserted (v:=c.2)
      (fun d hd => hne d (List.mem_cons_of_mem _ hd)) (fun d hd => hcs d (List.mem_cons_of_mem _ hd)) h
    constructor
    · rw [List.nil_append,ReplacesOriginal,hsub]
      exact ⟨fun hrest => hr.mp hrest.2,fun hall => ⟨hseg,hr.mpr hall⟩⟩
    · intro hall
      rw [List.nil_append,List.map_cons,substituteEach,hsub]
      exact hs hall
  | cons d left ih =>
    obtain ⟨ihr,ihs⟩ := ih (fun e he => hne e (List.mem_cons_of_mem _ he))
      (fun e he => hcs e (List.mem_cons_of_mem _ he)) fun e he => hleft e (List.mem_cons_of_mem _ he)
    have hkept := scan_around_free (c:=d) (x:=original c.1) (hne d List.mem_cons_self) h
      (hcs d List.mem_cons_self) (by rw [map_fst_original]; exact hleft d List.mem_cons_self)
    obtain ⟨hrest,hsame⟩ := replacesOriginal_cons_of_kept (left++c::right) hkept
    exact ⟨hrest.trans ihr,fun hall => hsame.trans (ihs hall)⟩

end Marked

section Template

variable {template : List (List α)}

/-- The placeholders and the lines of a template fit together. -/
structure Fits (cs : List (Binding α α)) (template : List (List α)) : Prop where
  nonempty : ∀ c∈cs,c.1≠[]
  /-- No placeholder contains an earlier one. -/
  apart : cs.Pairwise fun c d => ¬c.1<:+:d.1
  lines : ∀ l∈template,IsLine (cs.map Prod.fst) l
  /-- Every placeholder has a place. -/
  places : ∀ c∈cs,∃ before after,before++c.1++after∈template ∧
    Around id (cs.map Prod.fst) before after

/-- No value contains a placeholder that is substituted later. -/
def NoLaterPlaceholder (cs : List (Binding α α)) : Prop := cs.Pairwise fun c d => ¬d.1<:+:c.2

/-- One place of a template. -/
theorem Fits.place {c : Binding α α} {left right : List (Binding α α)} {before after : List α}
    (h : Fits (left++c::right) template)
    (ha : Around id ((left++c::right).map Prod.fst) before after) :
    (ReplacesOriginal (left++c::right) (original (before++c.1++after)) ↔ ∀ d∈right,¬d.1<:+:c.2) ∧
    ((∀ d∈right,¬d.1<:+:c.2) → substituteEach Prod.fst ((left++c::right).map Binding.marked)
      (original (before++c.1++after))=original before++inserted c.2++original after) := by
  have hleft : ∀ d∈left,¬d.1<:+:c.1 := fun d hd =>
    (List.pairwise_append.mp h.apart).2.2 d hd c List.mem_cons_self
  have htext : original (before++c.1++after)=original before++original c.1++original after := by
    rw [original,List.map_append,List.map_append]
    rfl
  rw [htext]
  exact replacesOriginal_place h.nonempty (fun d hd => List.mem_map_of_mem hd) ha hleft

/-- All placeholders at once: the value stands in its place. -/
theorem Fits.substitute_place {c : Binding α α} {left right : List (Binding α α)}
    {before after : List α} (h : Fits (left++c::right) template)
    (ha : Around id ((left++c::right).map Prod.fst) before after) :
    substitute id (left++c::right) (before++c.1++after)=before++c.2++after := by
  have hne : c.1≠[] := h.nonempty c (List.mem_append_right _ List.mem_cons_self)
  have hself : scan id (left++c::right) c.1=[.hit c.1 c.2 c.1] :=
    scanFrom_self hne (List.map_id _).symm rfl fun d hd hp => by
      rw [List.map_id] at hp
      exact (List.pairwise_append.mp h.apart).2.2 d hd c List.mem_cons_self hp.isInfix
  rw [substitute,scan_around h.nonempty ha,hself,List.flatMap_append,List.flatMap_append,
    (kept_text _).1,(kept_text _).1,List.flatMap_singleton]
  rfl

/-- A line without placeholders. -/
theorem replacesOriginal_free {l : List α} (h : ∀ c∈cs,¬c.1<:+:l) :
    ReplacesOriginal cs (original l) ∧
      substituteEach Prod.fst (cs.map Binding.marked) (original l)=original l := by
  induction cs with
  | nil => exact ⟨trivial,rfl⟩
  | cons c cs ih =>
    obtain ⟨hr,hs⟩ := ih fun d hd => h d (List.mem_cons_of_mem _ hd)
    have hscan : scan Prod.fst [c.marked] (original l)=(original l).map .kept := by
      refine scanFrom_of_absent fun b hb => ?_
      rw [List.mem_singleton.mp hb,map_fst_original]
      exact h c List.mem_cons_self
    obtain ⟨hrest,hsame⟩ := replacesOriginal_cons_of_kept cs hscan
    exact ⟨hrest.mpr hr,hsame.trans hs⟩

/-- The substitutions one after the other hit only the template exactly when
no value contains a placeholder that is substituted later. -/
theorem Fits.replacesOriginal_iff (h : Fits cs template) :
    (∀ l∈template,ReplacesOriginal cs (original l)) ↔ NoLaterPlaceholder cs := by
  rw [NoLaterPlaceholder,pairwise_iff_split]
  constructor
  · rintro hall left c right rfl
    obtain ⟨before,after,hl,ha⟩ := h.places c (List.mem_append_right _ List.mem_cons_self)
    exact (h.place ha).1.mp (hall _ hl)
  · intro hlater l hl
    rcases h.lines l hl with hfree|⟨before,p,after,hp,rfl,ha⟩
    · exact (replacesOriginal_free fun c hc => hfree c.1 (List.mem_map_of_mem hc)).1
    · obtain ⟨c,hc,rfl⟩ := List.mem_map.mp hp
      obtain ⟨left,right,rfl⟩ := List.append_of_mem hc
      exact (h.place ha).1.mpr (hlater left c right rfl)

/-- An inserted value between template text holds no placeholder of the template. -/
theorem noneLeft_place {ps : List (List α)} {before after v : List α} (hne : ∀ p∈ps,p≠[])
    (ha : Around id ps before after) : NoneLeft ps (original before++inserted v++original after) := by
  intro p hp s hs
  rw [segments_original_around (hne p hp) hp ha] at hs
  exact exists_inserted_of_segment (fun b hb => (List.mem_singleton.mp hb) ▸ hne p hp) hs

/-- When no value contains a placeholder that is substituted later, every line
is rendered as by all substitutions at once, and no placeholder is left. -/
theorem Fits.renders (h : Fits cs template) (hlater : NoLaterPlaceholder cs) {l : List α}
    (hl : l∈template) : substituteEach id cs l=substitute id cs l ∧
      NoneLeft (cs.map Prod.fst) (substituteEach Prod.fst (cs.map Binding.marked) (original l)) := by
  have hmarks : substituteEach id cs l=
      (substituteEach Prod.fst (cs.map Binding.marked) (original l)).map Prod.fst := by
    rw [map_fst_substituteEach,map_fst_original]
  have hne : ∀ p∈cs.map Prod.fst,p≠[] := by
    intro p hp
    obtain ⟨c,hc,rfl⟩ := List.mem_map.mp hp
    exact h.nonempty c hc
  rw [hmarks]
  rcases h.lines l hl with hfree|⟨before,p,after,hp,rfl,ha⟩
  · have hfree' : ∀ c∈cs,¬c.1<:+:l := fun c hc => hfree c.1 (List.mem_map_of_mem hc)
    rw [(replacesOriginal_free hfree').2,map_fst_original]
    constructor
    · refine (substitute_of_absent fun c hc => ?_).symm
      rw [List.map_id]
      exact hfree' c hc
    · intro p hp s hs
      have hscan : scan Prod.fst [((p,[]) : Binding α (Marked α))] (original l)=
          (original l).map .kept := by
        refine scanFrom_of_absent fun b hb => ?_
        rw [List.mem_singleton.mp hb,map_fst_original]
        exact hfree p hp
      rw [hscan,(kept_text _).2] at hs
      exact absurd hs List.not_mem_nil
  · obtain ⟨c,hc,rfl⟩ := List.mem_map.mp hp
    obtain ⟨left,right,rfl⟩ := List.append_of_mem hc
    rw [(h.place ha).2 (pairwise_iff_split.mp hlater left c right rfl),h.substitute_place ha]
    constructor
    · rw [List.map_append,List.map_append,map_fst_original,map_fst_original,map_fst_inserted]
    · exact noneLeft_place hne ha

end Template

end Greenhouse.PlaceholderSubstitution
