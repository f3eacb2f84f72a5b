import Mathlib.Data.Prod.Lex
import Mathlib.Data.Set.Card
import Mathlib.Tactic
import Groovebox.Scale
/-! # The detected scale

A scale is found by a score that adds two doubles, the share of the song's pitch classes that the
scale holds and a bonus for scales with few notes. The bonus never makes up for one pitch class
less, and rounding never makes two scores equal or lets them change places, so the score orders
scales by what they hold and then by their size.

* `Scale.score_lt_iff`: the order of the scores.
* `Scale.Leads.keepBest`, `Scale.foldl_keepBest_leads`: one step of the search, and all of it.
* `Scale.detect?_best`: which scale is found.
-/

namespace Groovebox

/-! ## Doubles above zero -/

/-- The exponent and the significand of a double above zero, in the order in which they count when
two doubles are compared. -/
def Binary64.order (x : Float) : WithBot (Int ×ₗ Nat) :=
  match x.toModel.unpack with
  | .finite .positive significand exponent _ => (toLex (exponent, significand) : Int ×ₗ Nat)
  | _ => ⊥

/-- Doubles above zero are compared by their exponents first. -/
theorem Binary64.lt_iff_order {x y : Float} (hx : order x ≠ ⊥) (hy : order y ≠ ⊥) :
    x < y ↔ order x < order y := by
  have hlt : x < y ↔ x.toModel.unpack.compare y.toModel.unpack = some .lt := by
    show Float.lt x y = true ↔ _
    rw [Float.lt, decide_eq_true_eq]
    show (x.toModel.unpack.compare y.toModel.unpack == some .lt) = true ↔ _
    exact beq_iff_eq
  unfold order at hx hy ⊢
  rw [hlt]
  split at hx
  · split at hy
    · rename_i m e _ hm _ m' e' _ hm'
      rw [hm, hm']
      show some ((compare e e').then (compare m m')) = some .lt ↔
        ((toLex (e, m) : Int ×ₗ Nat) : WithBot (Int ×ₗ Nat)) < (toLex (e', m') : Int ×ₗ Nat)
      rw [Option.some_inj, Ordering.then_eq_lt, compare_lt_iff_lt, compare_eq_iff_eq,
        compare_lt_iff_lt, WithBot.coe_lt_coe, Prod.Lex.toLex_lt_toLex]
    · exact absurd rfl hy
  · exact absurd rfl hx

namespace Scale

/-! ## Scores -/

/-- The number of notes of a scale. -/
def size (s : Scale) : Nat :=
  s.intervals.length

/-- One of the templates on one of the twelve roots. -/
structure Listed (s : Scale) : Prop where
  root_lt : s.root < 12
  template_lt : s.template < ScaleTemplate.all.length

/-- Of two scales, the one with the lower root or, on one root, with the earlier template. -/
def Earlier (s t : Scale) : Prop :=
  s.root < t.root ∨ s.root = t.root ∧ s.template < t.template

/-- A scale is preferred to another one if more counts for it, or as much and it is smaller, or as
much and it is as large and earlier. -/
def Preferred (count : Scale → Nat) (s t : Scale) : Prop :=
  count t < count s ∨
    count s = count t ∧ (s.size < t.size ∨ s.size = t.size ∧ Earlier s t)

instance (count : Scale → Nat) (s t : Scale) : Decidable (Preferred count s t) :=
  inferInstanceAs (Decidable (_ ∨ _ ∧ (_ ∨ _ ∧ (_ ∨ _ ∧ _))))

/-- Of two scales no more than one is preferred. -/
theorem Preferred.asymm {count : Scale → Nat} {s t : Scale} (h : Preferred count s t) :
    ¬Preferred count t s := by
  unfold Preferred Earlier at *
  omega

/-- The score of a scale with `size` notes that holds `held` of `n` pitch classes. -/
def scoreOf (n held size : Nat) : Float :=
  held.toFloat / n.toFloat + 0.1 / size.toFloat

variable {classes : List Nat} {s t : Scale}

/-- Scales have five to eight notes. -/
theorem Listed.size_range (h : s.Listed) : 5 ≤ s.size ∧ s.size ≤ 8 := by
  have hall : ∀ i < ScaleTemplate.all.length,
      5 ≤ (ScaleTemplate.intervalsAt i).length ∧ (ScaleTemplate.intervalsAt i).length ≤ 8 := by
    decide
  exact hall s.template h.template_lt

/-- A smaller scale that holds as many pitch classes scores more. -/
theorem order_scoreOf_sizes : ∀ n < 13, 0 < n → ∀ held ≤ n,
    ⊥ < Binary64.order (scoreOf n held 8) ∧
      Binary64.order (scoreOf n held 8) < Binary64.order (scoreOf n held 7) ∧
      Binary64.order (scoreOf n held 7) < Binary64.order (scoreOf n held 6) ∧
      Binary64.order (scoreOf n held 6) < Binary64.order (scoreOf n held 5) := by
  decide +kernel

/-- The largest scale that holds one pitch class more scores more than the smallest. -/
theorem order_scoreOf_held_succ : ∀ n < 13, 0 < n → ∀ held < n,
    Binary64.order (scoreOf n held 5) < Binary64.order (scoreOf n (held + 1) 8) := by
  decide +kernel

section

variable {n : Nat}

/-- Of two scales that hold as many pitch classes, the smaller one scores more. -/
theorem order_scoreOf_size_lt (hn : n < 13) (hpos : 0 < n) {held p q : Nat} (hheld : held ≤ n)
    (hp : 5 ≤ p) (hpq : p < q) (hq : q ≤ 8) :
    Binary64.order (scoreOf n held q) < Binary64.order (scoreOf n held p) := by
  rcases order_scoreOf_sizes n hn hpos held hheld with ⟨-, h87, h76, h65⟩
  have hp' : p ≤ 7 := by omega
  -- Four sizes make six pairs, and neighbours are compared already.
  interval_cases p <;> interval_cases q
  · exact h65
  · exact h76.trans h65
  · exact (h87.trans h76).trans h65
  · exact h76
  · exact h87.trans h76
  · exact h87

/-- A scale that holds more pitch classes scores more, even if it is the largest and the other the
smallest. -/
theorem order_scoreOf_held_lt (hn : n < 13) (hpos : 0 < n) {held more : Nat} (h : held < more) :
    more ≤ n → Binary64.order (scoreOf n held 5) < Binary64.order (scoreOf n more 8) := by
  have hsucc := order_scoreOf_held_succ n hn hpos
  induction more, h using Nat.le_induction with
  | base => exact fun hmore => hsucc held hmore
  -- The induction is on how many more it holds; each step goes by way of the smallest scale.
  | succ more _ ih =>
    intro hmore
    have hsizes := order_scoreOf_size_lt hn hpos (Nat.le_of_succ_le hmore) le_rfl
      (show 5 < 8 by decide) le_rfl
    exact ((ih (Nat.le_of_succ_le hmore)).trans hsizes).trans (hsucc more hmore)

/-- All possible scores in their order. -/
theorem order_scoreOf_lt (hn : n < 13) (hpos : 0 < n) {a b p q : Nat} (ha : a ≤ n) (hb : b ≤ n)
    (hp : 5 ≤ p ∧ p ≤ 8) (hq : 5 ≤ q ∧ q ≤ 8) (h : a < b ∨ a = b ∧ q < p) :
    Binary64.order (scoreOf n a p) < Binary64.order (scoreOf n b q) := by
  rcases h with hlt | ⟨rfl, hsize⟩
  · have hlow : Binary64.order (scoreOf n a p) ≤ Binary64.order (scoreOf n a 5) := by
      rcases Nat.eq_or_lt_of_le hp.1 with rfl | hlarger
      · exact le_rfl
      · exact (order_scoreOf_size_lt hn hpos ha le_rfl hlarger hp.2).le
    have hhigh : Binary64.order (scoreOf n b 8) ≤ Binary64.order (scoreOf n b q) := by
      rcases Nat.eq_or_lt_of_le hq.2 with rfl | hsmaller
      · exact le_rfl
      · exact (order_scoreOf_size_lt hn hpos hb hq.1 hsmaller le_rfl).le
    exact (hlow.trans_lt (order_scoreOf_held_lt hn hpos hlt hb)).trans_le hhigh
  · exact order_scoreOf_size_lt hn hpos ha hq.1 hsize hp.2

/-- Every score is above zero. -/
theorem order_scoreOf_ne_bot (hn : n < 13) (hpos : 0 < n) {held p : Nat} (hheld : held ≤ n)
    (hp : 5 ≤ p ∧ p ≤ 8) : Binary64.order (scoreOf n held p) ≠ ⊥ := by
  have hlargest := (order_scoreOf_sizes n hn hpos held hheld).1
  rcases Nat.eq_or_lt_of_le hp.2 with rfl | hsmaller
  · exact hlargest.ne'
  · exact (hlargest.trans (order_scoreOf_size_lt hn hpos hheld hp.1 hsmaller le_rfl)).ne'

end

/-- Scores order scales by the number of pitch classes that they hold, and those that hold as many
by size; other than that there are no differences. -/
theorem score_lt_iff (hlen : classes.length < 13) (hpos : 0 < classes.length) (hs : s.Listed)
    (ht : t.Listed) : t.score classes < s.score classes ↔
      t.fitting classes < s.fitting classes ∨
        s.fitting classes = t.fitting classes ∧ s.size < t.size := by
  have hsize := hs.size_range
  have hsize' := ht.size_range
  have hfit : s.fitting classes ≤ classes.length := List.countP_le_length
  have hfit' : t.fitting classes ≤ classes.length := List.countP_le_length
  show scoreOf classes.length (t.fitting classes) t.size <
    scoreOf classes.length (s.fitting classes) s.size ↔ _
  rw [Binary64.lt_iff_order (order_scoreOf_ne_bot hlen hpos hfit' hsize')
    (order_scoreOf_ne_bot hlen hpos hfit hsize)]
  constructor
  · -- Otherwise the two are alike, or it is the other way round.
    intro h
    by_contra hnot
    by_cases halike : t.fitting classes = s.fitting classes ∧ t.size = s.size
    · exact h.ne (by rw [halike.1, halike.2])
    · exact lt_asymm h (order_scoreOf_lt hlen hpos hfit hfit' hsize hsize' (by omega))
  · intro h
    exact order_scoreOf_lt hlen hpos hfit' hfit hsize' hsize (by omega)

/-! ## The search -/

/-- What is kept of the scales seen so far: one that is preferred to all others, with its score. -/
inductive Leads (classes : List Nat) : List Scale → Option (Float × Scale) → Prop
  | nothing : Leads classes [] none
  | best {seen : List Scale} {b : Scale} (hmem : b ∈ seen)
      (hbest : ∀ t ∈ seen, t ≠ b → Preferred (fitting classes) b t) :
      Leads classes seen (some (b.score classes, b))

/-- One step of the search: after one more scale, the one that is kept is still preferred to all
others. -/
theorem Leads.keepBest {seen : List Scale} {best : Option (Float × Scale)}
    (hlen : classes.length < 13) (hpos : 0 < classes.length) (h : Leads classes seen best)
    (hs : s.Listed) (hseen : ∀ t ∈ seen, t.Listed ∧ Earlier t s) :
    Leads classes (seen ++ [s]) (Scale.keepBest classes best s) := by
  have hlast : s ∈ seen ++ [s] := List.mem_append_right _ List.mem_cons_self
  have hmem_cases {t : Scale} (ht : t ∈ seen ++ [s]) : t ∈ seen ∨ t = s := by
    simpa using ht
  cases h with
  | nothing =>
    refine Leads.best hlast ?_
    intro t ht hne
    exact absurd ((hmem_cases ht).resolve_left List.not_mem_nil) hne
  | @best seen b hmem hbest =>
    rcases hseen b hmem with ⟨hb, hearlier⟩
    have hscore := score_lt_iff hlen hpos hs hb
    unfold Scale.keepBest
    simp only
    split
    · -- The new scale holds more or is smaller, and so it is preferred to all that `b` was.
      have hbetter := hscore.1 ‹_›
      refine Leads.best hlast ?_
      intro t ht hne
      have hseen_t := (hmem_cases ht).resolve_right hne
      by_cases htb : t = b
      · subst htb
        unfold Preferred
        omega
      · have hbt := hbest t hseen_t htb
        unfold Preferred Earlier at *
        omega
    · -- The new scale is no better than `b`, and it comes later.
      have hworse := mt hscore.2 ‹_›
      refine Leads.best (List.mem_append_left _ hmem) ?_
      intro t ht hne
      rcases hmem_cases ht with hseen_t | rfl
      · exact hbest t hseen_t hne
      · unfold Preferred Earlier at *
        omega

/-- The whole search keeps the scale that is preferred to all others. -/
theorem foldl_keepBest_leads (hlen : classes.length < 13) (hpos : 0 < classes.length)
    (l : List Scale) (hl : ∀ s ∈ l, s.Listed) (hsorted : l.Pairwise Earlier) :
    Leads classes l (l.foldl (Scale.keepBest classes) none) := by
  -- The scales come in their order, so the last one is later than all before it.
  induction l using List.reverseRecOn with
  | nil => exact .nothing
  | append_singleton seen s ih =>
    rw [List.pairwise_append] at hsorted
    rw [List.foldl_append]
    apply Leads.keepBest hlen hpos
    · exact ih (fun t ht => hl t (List.mem_append_left _ ht)) hsorted.1
    · exact hl s (List.mem_append_right _ List.mem_cons_self)
    · intro t ht
      exact ⟨hl t (List.mem_append_left _ ht), hsorted.2.2 t ht s List.mem_cons_self⟩

/-- Once any scale was seen, one is kept. -/
theorem Leads.exists_best {seen : List Scale} {best : Option (Float × Scale)}
    (h : Leads classes seen best) (hne : seen ≠ []) :
    ∃ b ∈ seen, best.map Prod.snd = some b ∧
      ∀ t ∈ seen, t ≠ b → Preferred (fitting classes) b t := by
  cases h with
  | nothing => exact absurd rfl hne
  | @best _ b hmem hbest => exact ⟨b, hmem, rfl, hbest⟩

/-- The scales that are tried are all there are. -/
theorem mem_candidates_iff : s ∈ candidates ↔ s.Listed := by
  simp only [candidates, List.mem_flatMap, List.mem_range, List.mem_map]
  constructor
  · rintro ⟨root, hroot, template, htemplate, rfl⟩
    exact ⟨hroot, htemplate⟩
  · intro h
    exact ⟨s.root, h.root_lt, s.template, h.template_lt, rfl⟩

/-- Scales are tried from the lowest root up, and on each root in the order of the templates. -/
theorem candidates_pairwise : candidates.Pairwise Earlier := by
  rw [candidates, List.pairwise_flatMap]
  constructor
  · intro root _
    rw [List.pairwise_map]
    exact List.pairwise_lt_range.imp fun h => Or.inr ⟨rfl, h⟩
  · refine List.pairwise_lt_range.imp ?_
    intro root root' h s hs t ht
    rcases List.mem_map.1 hs with ⟨i, -, rfl⟩
    rcases List.mem_map.1 ht with ⟨j, -, rfl⟩
    exact Or.inl h

/-! ## What a song holds -/

/-- A pitch class is one of the notes of a scale. -/
def Has (s : Scale) (pitchClass : Nat) : Prop :=
  ∃ interval ∈ s.intervals, (s.root + interval) % 12 = pitchClass

/-- A scale contains a pitch class just if it is one of its notes. -/
theorem contains_iff (h : s.Listed) {c : Nat} (hc : c < 12) : s.contains c = true ↔ s.Has c := by
  have hintervals : ∀ i < ScaleTemplate.all.length, ∀ j ∈ ScaleTemplate.intervalsAt i, j < 12 := by
    decide
  have hroot := h.root_lt
  rw [contains, List.contains_iff_mem]
  constructor
  · intro hmem
    exact ⟨_, hmem, by omega⟩
  · rintro ⟨i, hi, hic⟩
    have hlt : i < 12 := hintervals s.template h.template_lt i hi
    -- Counting up from the root leads back to the interval.
    have hback : (c % 12 + 12 - s.root) % 12 = i := by omega
    rwa [hback]

end Scale

namespace Song

/-- A note stands in some step of some pattern of a track that follows the chord. -/
def Follows (song : Song) (note : Nat) : Prop :=
  ∃ (t p : Fin 16) (k : Fin 64), song.chordFollow.get t = true ∧
    note ∈ (((song.tracks.get t).patterns.get p).steps.get k).chord.notes

/-- A note of a pitch class stands there. -/
def UsesClass (song : Song) (pitchClass : Nat) : Prop :=
  ∃ note, song.Follows note ∧ note % 12 = pitchClass

/-- The pitch classes of a song are those of the notes on tracks that follow the chord. -/
theorem mem_pitchClasses_iff {song : Song} {c : Nat} :
    c ∈ song.pitchClasses ↔ song.UsesClass c := by
  simp only [pitchClasses, List.mem_filter, List.mem_range, List.any_eq_true, Vector.any_eq_true,
    Vector.mem_toList_iff, Vector.mem_iff_getElem, Vector.getElem_zip, beq_iff_eq]
  constructor
  · rintro ⟨-, ⟨track, follow⟩, ⟨⟨t, ht, heq⟩, hfollow⟩, p, hp, k, hk, note, hnote, hclass⟩
    rcases Prod.mk.inj heq with ⟨rfl, rfl⟩
    exact ⟨note, ⟨⟨t, ht⟩, ⟨p, hp⟩, ⟨k, hk⟩, hfollow, hnote⟩, hclass⟩
  · rintro ⟨note, ⟨t, p, k, hfollow, hnote⟩, hclass⟩
    have hlt : c < 12 := hclass ▸ Nat.mod_lt note (by decide)
    exact ⟨hlt, _, ⟨⟨t, t.isLt, rfl⟩, hfollow⟩, p, p.isLt, k, k.isLt, note, hnote, hclass⟩

theorem pitchClasses_nodup (song : Song) : song.pitchClasses.Nodup :=
  List.nodup_range.filter _

/-- A song has twelve pitch classes at most. -/
theorem length_pitchClasses_lt (song : Song) : song.pitchClasses.length < 13 := by
  have hle : song.pitchClasses.length ≤ (List.range 12).length := List.length_filter_le _ _
  rw [List.length_range] at hle
  omega

end Song

namespace Scale

/-- How many pitch classes of a song are in a scale. -/
noncomputable def held (song : Song) (s : Scale) : Nat :=
  {c | song.UsesClass c ∧ s.Has c}.ncard

/-- How many pitch classes of the song a scale holds is counted without regard to order. -/
theorem fitting_eq_held {song : Song} {s : Scale} (h : s.Listed) :
    s.fitting song.pitchClasses = held song s := by
  have hclasses : {c | song.UsesClass c ∧ s.Has c} =
      ((song.pitchClasses.filter s.contains).toFinset : Set Nat) := by
    ext c
    simp only [Set.mem_ofPred_eq, List.coe_toFinset, List.mem_filter, Song.mem_pitchClasses_iff]
    refine and_congr_right fun hc => ?_
    rcases hc with ⟨note, -, rfl⟩
    exact (contains_iff h (Nat.mod_lt note (by decide))).symm
  rw [held, hclasses, Set.ncard_coe_finset,
    List.toFinset_card_of_nodup (song.pitchClasses_nodup.filter _), fitting,
    List.countP_eq_length_filter]

theorem preferred_fitting {song : Song} {s t : Scale} (hs : s.Listed) (ht : t.Listed)
    (h : Preferred (fitting song.pitchClasses) s t) : Preferred (held song) s t := by
  unfold Preferred at h ⊢
  rwa [fitting_eq_held hs, fitting_eq_held ht] at h

/-- Where a song uses any pitch class, a scale is found, and it is preferred to every other one. -/
theorem exists_detect? {song : Song} (h : song.pitchClasses ≠ []) :
    ∃ found, detect? song = some found ∧ found.Listed ∧
      ∀ other : Scale, other.Listed → other ≠ found → Preferred (held song) found other := by
  have hleads := foldl_keepBest_leads song.length_pitchClasses_lt (List.length_pos_iff.2 h)
    candidates (fun s => mem_candidates_iff.1) candidates_pairwise
  have hfirst : (⟨0, 0⟩ : Scale) ∈ candidates := mem_candidates_iff.2 ⟨by decide, by decide⟩
  rcases hleads.exists_best (List.ne_nil_of_mem hfirst) with ⟨found, hmem, hfound, hbest⟩
  have hlisted := mem_candidates_iff.1 hmem
  refine ⟨found, ?_, hlisted, ?_⟩
  · simp only [detect?, List.isEmpty_iff, h, if_false, hfound]
  · intro other hother hne
    exact preferred_fitting hlisted hother (hbest other (mem_candidates_iff.2 hother) hne)

/-- No scale is found just if no track that follows the chord has a note. Otherwise the scale that
is found is the one template on one of the twelve roots that is preferred to all others: it holds
more of the pitch classes of these tracks, or as many and is smaller, or is as large too and has the
lower root or, on the same root, the earlier template. -/
theorem detect?_best (song : Song) :
    (detect? song = none ↔ ∀ note, ¬song.Follows note) ∧
      ∀ found, detect? song = some found ↔
        (∃ note, song.Follows note) ∧ found.Listed ∧
          ∀ other : Scale, other.Listed → other ≠ found → Preferred (held song) found other := by
  have hused : song.pitchClasses = [] ↔ ∀ note, ¬song.Follows note := by
    rw [List.eq_nil_iff_forall_not_mem]
    constructor
    · intro h note hnote
      exact h (note % 12) (Song.mem_pitchClasses_iff.2 ⟨note, hnote, rfl⟩)
    · intro h c hc
      rcases Song.mem_pitchClasses_iff.1 hc with ⟨note, hnote, -⟩
      exact h note hnote
  rw [← not_forall_not, ← hused]
  by_cases hempty : song.pitchClasses = []
  · simp [detect?, hempty]
  · rcases exists_detect? hempty with ⟨best, hbest, hlisted, hpreferred⟩
    simp only [hbest, hempty, iff_self, reduceCtorEq, not_false_eq_true, true_and, Option.some_inj]
    intro found
    constructor
    · rintro rfl
      exact ⟨hlisted, hpreferred⟩
    · rintro ⟨hfound, hothers⟩
      by_contra hne
      exact (hothers best hlisted hne).asymm (hpreferred found hfound (Ne.symm hne))

/-- A song with all twelve pitch classes in its first pattern. -/
def allNotes : Song :=
  ({} : Song).setTrack ⟨0, by decide⟩ ((Track.fresh 0).setPattern ⟨0, by decide⟩
    ((({} : Pattern).setStep ⟨0, by decide⟩
      { chord := ⟨[60, 61, 62, 63, 64, 65, 66], List.replicate 7 100⟩ }).setStep ⟨1, by decide⟩
      { chord := ⟨[67, 68, 69, 70, 71], List.replicate 5 100⟩ }))

/-- The two scales of eight notes hold the most, and the one with the earlier template is found, on
the lowest root. -/
theorem detect?_best_allNotes : detect? allNotes = some ⟨0, 13⟩ := by
  have hclasses : allNotes.pitchClasses = List.range 12 := by decide +kernel
  have hzero : allNotes.UsesClass 0 := by
    rw [← Song.mem_pitchClasses_iff, hclasses]
    decide
  have hlisted : (⟨0, 13⟩ : Scale).Listed := ⟨by decide, by decide⟩
  have hall : ∀ other ∈ candidates, other ≠ ⟨0, 13⟩ →
      Preferred (fitting (List.range 12)) ⟨0, 13⟩ other := by decide +kernel
  refine ((detect?_best allNotes).2 ⟨0, 13⟩).2 ⟨?_, hlisted, ?_⟩
  · rcases hzero with ⟨note, hnote, -⟩
    exact ⟨note, hnote⟩
  · intro other hother hne
    apply preferred_fitting hlisted hother
    rw [hclasses]
    exact hall other (mem_candidates_iff.2 hother) hne

end Scale

end Groovebox
