import MentalMath.Proofs.Problem.Picking
import MentalMath.Proofs.Random.Reading

/-! How often the easy options of a quotient are drawn. An option is drawn again while it is taken.
The first draw of the near option and the first draw of the high option are never taken. A draw of the
low option is taken only if it is mirrored above a small answer and falls on the high option, which
takes one offset of the hundred and one. So only a stream that yields this offset forever keeps the
options from coming about, and a larger answer has them from any ten words. -/

namespace MentalMath.Problem

open MentalMath.Random

/-! ### Drawing again -/

section Redraw

variable {taken : List Nat} {draw : Draw Nat} {P : Nat → Prop} {n : Nat} {k fuel fuel' : Nat}
  {us ws : List UInt32} {s s' : WordSource} {words rest : Stream' UInt32}

/-- The words of draws that are all taken but the last. -/
inductive Redraws (taken : List Nat) (draw : Draw Nat) : List UInt32 → Nat → Prop
  | accepted {ws : List UInt32} {n : Nat} (h : draw.Reads ws n) (hn : n ∉ taken) :
    Redraws taken draw ws n
  | rejected {ws vs : List UInt32} {m n : Nat} (h : draw.Reads ws m) (hm : m ∈ taken)
    (hrest : Redraws taken draw vs n) : Redraws taken draw (ws ++ vs) n

theorem redraw_mono (h : redraw taken draw fuel s = .ok (n, s')) (hle : fuel ≤ fuel') :
    redraw taken draw fuel' s = .ok (n, s') := by
  induction fuel generalizing s fuel' with
  | zero => cases h
  | succ fuel ih =>
    obtain ⟨fuel', rfl⟩ := Nat.exists_eq_succ_of_ne_zero (Nat.ne_of_gt (Nat.lt_of_lt_of_le
      (Nat.succ_pos fuel) hle))
    rw [redraw_succ] at h
    obtain ⟨⟨m, s₁⟩, hm, hrest⟩ := Checked.bind_eq_ok.mp h
    rw [redraw_succ, hm]
    show (if m ∈ taken then redraw taken draw fuel' else pure m : Draw Nat) s₁ = _
    by_cases htaken : m ∈ taken
    · rw [if_pos htaken] at hrest ⊢
      exact ih hrest (Nat.le_of_succ_le_succ hle)
    · rw [if_neg htaken] at hrest ⊢
      exact hrest

theorem fresh_eq_of_yields (hd : draw.Yields k P) (hP : ∀ n, P n → n ∉ taken) :
    fresh taken draw = draw := by
  funext s
  obtain ⟨fuel, -, hfresh⟩ := exists_fresh_eq taken draw s
  rw [hfresh, redraw_succ]
  cases hdraw : draw s with
  | error f => rfl
  | ok r => exact congrFun (if_neg (hP r.1 (hd.of_eq_ok hdraw))) r.2

theorem Redraws.reads_fresh (h : Redraws taken draw ws n) (hd : draw.Yields 1 P) :
    (fresh taken draw).Reads ws n := by
  induction h with
  | @accepted ws n hws hn =>
    intro us
    obtain ⟨fuel, -, hfresh⟩ := exists_fresh_eq taken draw (.scripted (ws ++ us))
    rw [hfresh, redraw_succ, hws us]
    exact congrFun (if_neg hn) _
  | @rejected ws vs m n hws hm _ ih =>
    intro us
    obtain ⟨fuel, hfuel, hfresh⟩ := exists_fresh_eq taken draw (.scripted (ws ++ vs ++ us))
    obtain ⟨fuel', hfuel', hfresh'⟩ := exists_fresh_eq taken draw (.scripted (vs ++ us))
    -- The draw that was taken read a word, which pays for one more draw.
    have hle : fuel' + 1 ≤ fuel := by
      have hword := hws.le_length hd
      simp only [WordSource.scripted, List.length_append] at hfuel hfuel'
      omega
    have hrest := ih us
    rw [hfresh'] at hrest
    rw [hfresh, redraw_succ, List.append_assoc, hws]
    exact (congrFun (if_pos hm) _).trans (redraw_mono hrest hle)

theorem exists_redraws_of_redraw (hd : draw.ReadsOn)
    (h : redraw taken draw fuel (.scripted us) = .ok (n, s)) :
    ∃ ws vs, us = ws ++ vs ∧ s = .scripted vs ∧ Redraws taken draw ws n := by
  induction fuel generalizing us with
  | zero => cases h
  | succ fuel ih =>
    rw [redraw_succ] at h
    obtain ⟨⟨m, s₁⟩, hm, hrest⟩ := Checked.bind_eq_ok.mp h
    obtain ⟨ws, vs, rfl, rfl, hws⟩ := hd us m s₁ hm
    replace hrest : (if m ∈ taken then redraw taken draw fuel else pure m : Draw Nat)
      (.scripted vs) = .ok (n, s) := hrest
    by_cases htaken : m ∈ taken
    · rw [if_pos htaken] at hrest
      obtain ⟨ws', vs', rfl, rfl, hredraws⟩ := ih hrest
      exact ⟨ws ++ ws', vs', (List.append_assoc ws ws' vs').symm, rfl,
        .rejected hws htaken hredraws⟩
    · rw [if_neg htaken] at hrest
      cases hrest
      exact ⟨ws, vs, rfl, rfl, .accepted hws htaken⟩

theorem exists_redraws_of_fresh (hd : draw.ReadsOn)
    (h : fresh taken draw (.scripted us) = .ok (n, s)) :
    ∃ ws vs, us = ws ++ vs ∧ s = .scripted vs ∧ Redraws taken draw ws n := by
  obtain ⟨fuel, -, hfresh⟩ := exists_fresh_eq taken draw (.scripted us)
  exact exists_redraws_of_redraw hd (hfresh ▸ h)

theorem readsOn_fresh (hd : draw.ReadsOn) (hy : draw.Yields 1 P) :
    (fresh taken draw).ReadsOn := by
  intro us n s h
  obtain ⟨ws, vs, hus, hs, hredraws⟩ := exists_redraws_of_fresh hd h
  exact ⟨ws, vs, hus, hs, hredraws.reads_fresh hy⟩

theorem Redraws.sooner (h : Redraws taken draw ws n) (rest : Stream' UInt32) :
    Draw.Sooner draw (· ∉ taken) (ws ++ₛ rest) := by
  induction h with
  | accepted hws hn => exact .now ⟨_, rfl, hws⟩ hn
  | @rejected ws vs m n hws _ _ ih =>
    exact .later ⟨ws, Stream'.append_append_stream ws vs rest, hws⟩ ih

theorem exists_redraws_of_sooner (h : Draw.Sooner draw (· ∉ taken) words) :
    ∃ ws n rest, words = ws ++ₛ rest ∧ Redraws taken draw ws n := by
  induction h with
  | @now words rest n h hn =>
    obtain ⟨ws, rfl, hws⟩ := h
    exact ⟨ws, n, rest, rfl, .accepted hws hn⟩
  | @later words rest m h _ ih =>
    obtain ⟨ws, rfl, hws⟩ := h
    obtain ⟨vs, n, rest', rfl, hredraws⟩ := ih
    by_cases hm : m ∈ taken
    · exact ⟨ws ++ vs, n, rest', (Stream'.append_append_stream ws vs rest').symm,
        .rejected hws hm hredraws⟩
    · exact ⟨ws, m, vs ++ₛ rest', rfl, .accepted hws hm⟩

/-- Drawing again ends exactly on the streams on which some draw is not taken. -/
theorem endsOn_fresh_iff (hd : draw.ReadsOn) (hy : draw.Yields 1 P) :
    (fresh taken draw).EndsOn words ↔ Draw.Sooner draw (· ∉ taken) words := by
  constructor
  · rintro ⟨n, rest, ws, rfl, hws⟩
    obtain ⟨ws', vs, rfl, hs, hredraws⟩ := exists_redraws_of_fresh hd hws.apply
    obtain rfl : [] = vs := congrArg WordSource.pending hs
    rw [List.append_nil]
    exact hredraws.sooner rest
  · intro h
    obtain ⟨ws, n, rest, rfl, hredraws⟩ := exists_redraws_of_sooner h
    exact ⟨n, rest, ws, rfl, hredraws.reads_fresh hy⟩

end Redraw

/-! ### The draws of the easy options -/

section EasyOptions

variable {cents near high offset dividend divisor : Nat} {words : Stream' UInt32}

/-- The low option at an offset. -/
def lowAmount (cents offset : Nat) : Nat :=
  if offset < cents then cents - offset else cents + offset + 100

theorem lowDecoy_eq (hroom : cents + 250 ≤ maxCount) :
    lowDecoy cents = (do return lowAmount cents (← Draw.between 50 150)) := by
  funext s
  show (Draw.between 50 150 s >>= fun r => _) = (Draw.between 50 150 s >>= fun r => _)
  cases hdraw : Draw.between 50 150 s with
  | error f => rfl
  | ok r =>
    obtain ⟨offset, s'⟩ := r
    have hoffset := (Draw.yields_between (by decide) (by decide)).of_eq_ok hdraw
    show (if offset < cents then pure (cents - offset) else
      (do Count.add (← Count.add cents offset) 100) : Draw Nat) s' = .ok (lowAmount cents offset, s')
    by_cases hlow : offset < cents
    · rw [lowAmount, if_pos hlow, if_pos hlow]
      rfl
    · have hsum : Count.add cents offset = .ok (cents + offset) := Count.add_eq_ok (by omega)
      have hmirrored : Count.add (cents + offset) 100 = .ok (cents + offset + 100) :=
        Count.add_eq_ok (by omega)
      rw [lowAmount, if_neg hlow, if_neg hlow, hsum]
      exact congrFun (congrArg (liftM : Checked Nat → Draw Nat) hmirrored) s'

/-- The low option falls on another one in one case only. -/
theorem lowAmount_mem_iff (hnear : cents ≤ near + 5 ∧ near ≤ cents + 5)
    (hhigh : cents + 50 ≤ high ∧ high ≤ cents + 150) (ho : 50 ≤ offset ∧ offset ≤ 150) :
    lowAmount cents offset ∈ [cents, near, high] ↔
      cents ≤ 50 ∧ high = cents + 150 ∧ offset = 50 := by
  simp only [lowAmount, List.mem_cons, List.not_mem_nil, or_false]
  split <;> omega

theorem readsOn_nearDecoy (cents : Nat) : (nearDecoy cents).ReadsOn :=
  (Draw.readsOn_between 1 5).bind fun _ => (Draw.readsOn_chance halfThreshold).bind fun _ =>
    .ite (Draw.readsOn_lift _) (Draw.readsOn_pure _)

theorem readsOn_highDecoy (cents : Nat) : (highDecoy cents).ReadsOn :=
  (Draw.readsOn_between 50 150).bind fun _ => Draw.readsOn_lift _

theorem readsOn_lowDecoy (hroom : cents + 250 ≤ maxCount) : (lowDecoy cents).ReadsOn := by
  rw [lowDecoy_eq hroom]
  exact (Draw.readsOn_between 50 150).bind fun _ => Draw.readsOn_pure _

theorem within_nearDecoy (hroom : cents + 5 ≤ maxCount) :
    (nearDecoy cents).Within 4 fun n => n ≠ cents ∧ 0 < n ∧ n ≤ cents + 5 ∧ cents ≤ n + 5 := by
  have hreads : (nearDecoy cents).Within 4 fun _ => True := by
    refine (Draw.within_between (by decide) (by decide)).bind (l := 2) fun offset hoffset => ?_
    refine (Draw.within_chance halfThreshold).bind (l := 0) fun up _ => ?_
    exact .ite (fun _ => Draw.within_lift ⟨_, Count.add_eq_ok (by omega), trivial⟩)
      fun _ => Draw.within_pure trivial
  exact hreads.yields (yields_nearDecoy hroom)

theorem within_highDecoy (hroom : cents + 150 ≤ maxCount) :
    (highDecoy cents).Within 2 fun n => cents + 50 ≤ n ∧ n ≤ cents + 150 := by
  refine (Draw.within_between (by decide) (by decide)).bind (l := 0) fun offset hoffset => ?_
  exact Draw.within_lift ⟨_, Count.add_eq_ok (by omega), by omega⟩

theorem within_lowDecoy (hroom : cents + 250 ≤ maxCount) :
    (lowDecoy cents).Within 2 fun _ => True := by
  rw [lowDecoy_eq hroom]
  exact (Draw.within_between (by decide) (by decide)).bind (l := 0) fun _ _ =>
    Draw.within_pure trivial

theorem fresh_nearDecoy (hroom : cents + 250 ≤ maxCount) :
    fresh [cents] (nearDecoy cents) = nearDecoy cents := by
  refine fresh_eq_of_yields (yields_nearDecoy (by omega)) fun n hn => ?_
  rw [List.mem_singleton]
  exact hn.1

theorem fresh_highDecoy (hroom : cents + 250 ≤ maxCount) (hnear : near ≤ cents + 5) :
    fresh [cents, near] (highDecoy cents) = highDecoy cents := by
  refine fresh_eq_of_yields (yields_highDecoy (by omega)) fun n hn => ?_
  simp only [List.mem_cons, List.not_mem_nil, or_false]
  omega

theorem fresh_lowDecoy (hroom : cents + 250 ≤ maxCount) (hlarge : 50 < cents)
    (hnear : cents ≤ near + 5 ∧ near ≤ cents + 5)
    (hhigh : cents + 50 ≤ high ∧ high ≤ cents + 150) :
    fresh [cents, near, high] (lowDecoy cents) = lowDecoy cents := by
  have hyields : (lowDecoy cents).Yields 1 fun n =>
      ∃ offset, (50 ≤ offset ∧ offset ≤ 150) ∧ n = lowAmount cents offset := by
    rw [lowDecoy_eq hroom]
    exact (Draw.yields_between (by decide) (by decide)).bind fun offset ho =>
      Draw.yields_pure ⟨offset, ho, rfl⟩
  refine fresh_eq_of_yields hyields ?_
  rintro _ ⟨offset, ho, rfl⟩ hmem
  have hsmall := ((lowAmount_mem_iff hnear hhigh ho).mp hmem).1
  omega

/-- What is drawn after a near and a high option ends on a stream unless each further offset from
there is the one that is taken. -/
theorem endsOn_fresh_lowDecoy_iff (hroom : cents + 250 ≤ maxCount)
    (hnear : cents ≤ near + 5 ∧ near ≤ cents + 5)
    (hhigh : cents + 50 ≤ high ∧ high ≤ cents + 150) :
    (fresh [cents, near, high] (lowDecoy cents)).EndsOn words ↔
      (cents ≤ 50 → high = cents + 150 → Draw.Sooner (Draw.between 50 150) (· ≠ 50) words) := by
  have hbetween : (Draw.between 50 150).Yields 1 fun n => 50 ≤ n ∧ n ≤ 150 :=
    Draw.yields_between (by decide) (by decide)
  have hmem := fun offset (ho : 50 ≤ offset ∧ offset ≤ 150) => lowAmount_mem_iff hnear hhigh ho
  rw [endsOn_fresh_iff (readsOn_lowDecoy hroom) (yields_lowDecoy hroom), lowDecoy_eq hroom,
    Draw.sooner_map_iff (Draw.readsOn_between 50 150)]
  constructor
  · intro h hsmall hmost
    exact h.imp hbetween fun offset ho hfree heq => hfree ((hmem offset ho).mpr ⟨hsmall, hmost, heq⟩)
  · intro h
    by_cases hcase : cents ≤ 50 ∧ high = cents + 150
    · exact (h hcase.1 hcase.2).imp hbetween fun offset ho hne htaken =>
        hne ((hmem offset ho).mp htaken).2.2
    · obtain ⟨offset, rest, hon, ho⟩ := (Draw.within_between (by decide) (by decide)).exists_on
        (Draw.readsOn_between 50 150) words
      refine .now hon fun htaken => hcase ?_
      obtain ⟨hsmall, hmost, -⟩ := (hmem offset ho).mp htaken
      exact ⟨hsmall, hmost⟩

theorem readsOn_easyOptions (hroom : cents + 250 ≤ maxCount) : (easyOptions cents).ReadsOn :=
  (readsOn_fresh (readsOn_nearDecoy cents) (yields_nearDecoy (by omega))).bind fun _ =>
    (readsOn_fresh (readsOn_highDecoy cents) (yields_highDecoy (by omega))).bind fun _ =>
      (readsOn_fresh (readsOn_lowDecoy hroom) (yields_lowDecoy hroom)).bind fun _ =>
        Draw.readsOn_pure _

theorem endsOn_easyOptions_iff (hroom : cents + 250 ≤ maxCount) (words : Stream' UInt32) :
    ∃ near w₁ high w₂, (nearDecoy cents).On words near w₁ ∧ (highDecoy cents).On w₁ high w₂ ∧
      ((easyOptions cents).EndsOn words ↔
        (cents ≤ 50 → high = cents + 150 → Draw.Sooner (Draw.between 50 150) (· ≠ 50) w₂)) := by
  obtain ⟨near, w₁, hnear, hnearRange⟩ :=
    (within_nearDecoy (by omega)).exists_on (readsOn_nearDecoy cents) words
  obtain ⟨high, w₂, hhigh, hhighRange⟩ :=
    (within_highDecoy (by omega)).exists_on (readsOn_highDecoy cents) w₁
  refine ⟨near, w₁, high, w₂, hnear, hhigh, ?_⟩
  rw [easyOptions, fresh_nearDecoy hroom, Draw.endsOn_bind_iff (readsOn_nearDecoy cents) hnear,
    fresh_highDecoy hroom hnearRange.2.2.1,
    Draw.endsOn_bind_iff (readsOn_highDecoy cents) hhigh,
    Draw.endsOn_bind_iff_left (readsOn_fresh (readsOn_lowDecoy hroom) (yields_lowDecoy hroom))
      fun _ words => ⟨_, words, Draw.on_pure _ words⟩]
  exact endsOn_fresh_lowDecoy_iff hroom ⟨hnearRange.2.2.2, hnearRange.2.2.1⟩ hhighRange

theorem within_easyOptions (hroom : cents + 250 ≤ maxCount) (hlarge : 50 < cents) :
    (easyOptions cents).Within 8 fun _ => True := by
  rw [easyOptions, fresh_nearDecoy hroom]
  refine (within_nearDecoy (by omega)).bind (l := 4) fun near hnear => ?_
  rw [fresh_highDecoy hroom hnear.2.2.1]
  refine (within_highDecoy (by omega)).bind (l := 2) fun high hhigh => ?_
  rw [fresh_lowDecoy hroom hlarge ⟨hnear.2.2.2, hnear.2.2.1⟩ hhigh]
  exact (within_lowDecoy hroom).bind (l := 0) fun _ _ => Draw.within_pure trivial

theorem choice_eq (hcents : quotientCents dividend divisor = .ok cents) (now : Instant) :
    choice dividend divisor .easy now = (do
      let options ← Draw.shuffle (← easyOptions cents)
      return ⟨Skill.fourDigitDivision, operationText dividend "÷" divisor, centsText cents,
        some (options.map centsText), now⟩) := by
  rw [choice, hcents]
  rfl

theorem endsOn_choice_iff (hcents : quotientCents dividend divisor = .ok cents) (now : Instant) :
    (choice dividend divisor .easy now).EndsOn words ↔ (easyOptions cents).EndsOn words := by
  rw [choice_eq hcents]
  refine Draw.endsOn_bind_iff_left (readsOn_easyOptions (quotientCents_le hcents)) ?_
  intro raw words
  obtain ⟨options, rest, hoptions, -⟩ :=
    (Draw.within_shuffle raw).exists_on (Draw.readsOn_shuffle raw) words
  exact ⟨_, rest, hoptions.bind (Draw.on_pure _ rest)⟩

/-- How the options of an easy quotient are drawn, where `cents` is the answer. -/
structure EasyDraws (dividend divisor cents : Nat) : Prop where
  /-- The first near option is kept. -/
  near : fresh [cents] (nearDecoy cents) = nearDecoy cents
  /-- The first high option is kept, whichever near option there is. -/
  high : ∀ near s₁ s₁', nearDecoy cents s₁ = .ok (near, s₁') →
    fresh [cents, near] (highDecoy cents) = highDecoy cents
  /-- A low option is drawn again in one case only. -/
  low : ∀ near s₁ s₁' high s₂ s₂' offset s s', nearDecoy cents s₁ = .ok (near, s₁') →
    highDecoy cents s₂ = .ok (high, s₂') → Draw.between 50 150 s = .ok (offset, s') →
    ∃ low, lowDecoy cents s = .ok (low, s') ∧
      (low ∈ [cents, near, high] ↔ cents ≤ 50 ∧ high = cents + 150 ∧ offset = 50)
  /-- On a stream, the problem comes about unless all offsets that follow are the one of that case. -/
  ends : ∀ now words, ∃ near w₁ high w₂,
    (nearDecoy cents).On words near w₁ ∧ (highDecoy cents).On w₁ high w₂ ∧
      ((choice dividend divisor .easy now).EndsOn words ↔
        (cents ≤ 50 → high = cents + 150 → Draw.Sooner (Draw.between 50 150) (· ≠ 50) w₂))
  /-- With a larger answer, it comes about from ten words, whatever words they are. -/
  bounded : 50 < cents → ∀ now, (choice dividend divisor .easy now).Within 10 fun _ => True

theorem easyDraws_of_quotient (hcents : quotientCents dividend divisor = .ok cents) :
    EasyDraws dividend divisor cents := by
  have hroom := quotientCents_le hcents
  refine ⟨fresh_nearDecoy hroom, ?high, ?low, ?ends, ?bounded⟩
  case high =>
    intro near s₁ s₁' hnear
    exact fresh_highDecoy hroom ((yields_nearDecoy (by omega)).of_eq_ok hnear).2.2.1
  case low =>
    intro near s₁ s₁' high s₂ s₂' offset s s' hnear hhigh hoffset
    have hnearRange := (yields_nearDecoy (by omega)).of_eq_ok hnear
    have hhighRange := (yields_highDecoy (by omega)).of_eq_ok hhigh
    have hoffsetRange := (Draw.yields_between (by decide) (by decide)).of_eq_ok hoffset
    refine ⟨lowAmount cents offset, ?_, lowAmount_mem_iff ⟨hnearRange.2.2.2, hnearRange.2.2.1⟩
      hhighRange hoffsetRange⟩
    rw [lowDecoy_eq hroom, Draw.bind_apply, hoffset]
    rfl
  case ends =>
    intro now words
    obtain ⟨near, w₁, high, w₂, hnear, hhigh, hends⟩ := endsOn_easyOptions_iff hroom words
    exact ⟨near, w₁, high, w₂, hnear, hhigh, (endsOn_choice_iff hcents now).trans hends⟩
  case bounded =>
    intro hlarge now
    rw [choice_eq hcents]
    refine (within_easyOptions hroom hlarge).bind (l := 2) fun raw _ => ?_
    exact (Draw.within_shuffle raw).bind (l := 0) fun _ _ => Draw.within_pure trivial

/-- Two fifths, whose mirrored option at the least offset is the high option at the greatest. -/
theorem easyDraws_of_two_fifths :
    quotientCents 2 5 = .ok 40 ∧ EasyDraws 2 5 40 ∧
      (nearDecoy 40 (.scripted [0, 0, 0])).map Prod.fst = .ok 41 ∧
      (highDecoy 40 (.scripted [4294967295])).map Prod.fst = .ok 190 ∧
      (lowDecoy 40 (.scripted [0])).map Prod.fst = .ok 190 ∧
      (choice 2 5 .easy .epoch (.scripted [0, 0, 0, 4294967295, 0, 0, 42949673, 0])).map
        (fun r => r.1.options) = .ok (some ["1.91", "0.40", "0.41", "1.90"]) := by
  refine ⟨rfl, easyDraws_of_quotient rfl, ?_, ?_, ?_, ?_⟩ <;> decide +kernel

end EasyOptions

end MentalMath.Problem
