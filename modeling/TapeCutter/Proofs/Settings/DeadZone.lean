import TapeCutter.Settings.Rules

/-! The dead zone of the stick. Both thresholds of a wiper come from one margin, taken from
either end of its scale. Valid settings keep the margin below half of full scale, so the
thresholds do not cross, the centre lies between them, and the words the samples come in are
wide enough for the arithmetic. -/
namespace TapeCutter

namespace StickSettings

variable {stick : StickSettings}

/-- The samples that are no deflection, in whole numbers. -/
def DeadZone (stick : StickSettings) (sample : Int) : Prop :=
  stick.margin.toNat ≤ sample ∧ sample ≤ stick.fullScale.toNat - stick.margin.toNat

/-- The reading in whole numbers, where no difference is cut off at zero. -/
def classifyExact (stick : StickSettings) (x y : Int) (switchHigh : Bool) : Menu.Stick where
  up := y < stick.margin.toNat
  down := stick.fullScale.toNat - stick.margin.toNat < y
  left := x < stick.margin.toNat
  right := stick.fullScale.toNat - stick.margin.toNat < x
  pressed := !switchHigh

/-- Counted from the other end of the scale, a sample of either wiper is beyond the one
threshold just if it is beyond the other one as it stands. -/
theorem beyond_mirror_iff (stick : StickSettings) (sample : Int) :
    (stick.fullScale.toNat - sample < stick.margin.toNat ↔
        stick.fullScale.toNat - stick.margin.toNat < sample) ∧
      (stick.fullScale.toNat - stick.margin.toNat < stick.fullScale.toNat - sample ↔
        sample < stick.margin.toNat) := by
  omega

/-- A reading in whole numbers asks for a move unless both samples are in the dead zone. -/
theorem move?_classifyExact_eq_none_iff (stick : StickSettings) (x y : Int) (switchHigh : Bool) :
    (stick.classifyExact x y switchHigh).move? = none ↔ stick.DeadZone x ∧ stick.DeadZone y := by
  rw [Menu.Stick.move?_eq_none_iff]
  simp only [Menu.Stick.deflected, Menu.Stick.vertical, Menu.Stick.horizontal, classifyExact,
    DeadZone, Bool.or_eq_false_iff, decide_eq_false_iff_not]
  omega

/-- Thresholds that do not cross leave no sample beyond both of them. -/
theorem not_opposite_classifyExact (hHalf : stick.margin.toNat < stick.fullScale.toNat / 2)
    (x y : Int) (switchHigh : Bool) :
    let reading := stick.classifyExact x y switchHigh
    ¬ (reading.left = true ∧ reading.right = true) ∧
      ¬ (reading.up = true ∧ reading.down = true) := by
  simp only [classifyExact, decide_eq_true_iff]
  omega

/-- A part is taken from a word as in whole numbers. -/
theorem toNat_sub_of_le {whole part : UInt16} (hLe : part ≤ whole) :
    ((whole - part).toNat : Int) = whole.toNat - part.toNat := by
  rw [UInt16.toNat_sub_of_le _ _ hLe]
  exact Int.ofNat_sub (UInt16.le_iff_toNat_le.mp hLe)

/-- A margin within the scale is taken from its upper end without a loss. -/
theorem classify_eq_exact (hMargin : stick.margin ≤ stick.fullScale) (x y : UInt16)
    (switchHigh : Bool) :
    stick.classify x y switchHigh = stick.classifyExact x.toNat y.toNat switchHigh := by
  have hHigh := toNat_sub_of_le hMargin
  simp only [classify, Menu.Stick.classify, if_pos hMargin, classifyExact, Menu.Stick.mk.injEq,
    decide_eq_decide, UInt16.lt_iff_toNat_lt, and_true]
  omega

/-- Valid settings keep the margin below half of full scale. -/
theorem margin_lt_half_of_valid {settings : Settings} (hValid : settings.invalid? = none) :
    settings.stick.margin.toNat < settings.stick.fullScale.toNat / 2 := by
  have hRules : ∀ rule ∈ settings.stick.rules, rule.holds = true := fun rule hMem =>
    settings.invalid?_eq_none_iff.mp hValid rule (by simp [Settings.rules, hMem])
  simp only [rules, List.mem_singleton, forall_eq, Bool.and_eq_true, decide_eq_true_iff,
    UInt16.lt_iff_toNat_lt, UInt16.toNat_div] at hRules
  exact hRules.2

/-- With valid settings the margin is taken from full scale without a loss, and the middle of
the scale is in the dead zone, so that a centred stick is not deflected. Of any two samples the
reading is the one in whole numbers. It never has opposite directions, asks for a move exactly
if one of the samples is outside the dead zone, and follows the scale turned round: with a
sample counted from the other end, the two directions of its wiper change places. -/
theorem opposite_deflections_apart (settings : Settings) (hValid : settings.invalid? = none) :
    let stick := settings.stick
    let centre := stick.fullScale / 2
    stick.margin ≤ stick.fullScale ∧ stick.DeadZone centre.toNat ∧
      (∀ switchHigh, stick.classify centre centre switchHigh = { pressed := !switchHigh }) ∧
      ∀ (x y : UInt16) (switchHigh : Bool),
        let reading := stick.classify x y switchHigh
        reading = stick.classifyExact x.toNat y.toNat switchHigh ∧
          ¬ (reading.left = true ∧ reading.right = true) ∧
          ¬ (reading.up = true ∧ reading.down = true) ∧
          (reading.move? = none ↔ stick.DeadZone x.toNat ∧ stick.DeadZone y.toNat) ∧
          (x ≤ stick.fullScale → stick.classify (stick.fullScale - x) y switchHigh =
            { reading with left := reading.right, right := reading.left }) ∧
          (y ≤ stick.fullScale → stick.classify x (stick.fullScale - y) switchHigh =
            { reading with up := reading.down, down := reading.up }) := by
  intro stick centre
  have hHalf : stick.margin.toNat < stick.fullScale.toNat / 2 := margin_lt_half_of_valid hValid
  have hMargin : stick.margin ≤ stick.fullScale := by
    rw [UInt16.le_iff_toNat_le]
    omega
  have hExact := classify_eq_exact hMargin
  have hCentre : (centre.toNat : Int) = stick.fullScale.toNat / 2 := rfl
  refine ⟨hMargin, ?_, fun switchHigh => ?_, ?_⟩
  · rw [DeadZone, hCentre]
    omega
  · rw [hExact]
    simp only [classifyExact, Menu.Stick.mk.injEq, decide_eq_false_iff_not, hCentre, and_true]
    omega
  · intro x y switchHigh reading
    have hReading : reading = stick.classifyExact x.toNat y.toNat switchHigh :=
      hExact x y switchHigh
    obtain ⟨hSides, hEnds⟩ := not_opposite_classifyExact hHalf x.toNat y.toNat switchHigh
    rw [hReading]
    refine ⟨rfl, hSides, hEnds, move?_classifyExact_eq_none_iff stick _ _ _, fun hX => ?_,
      fun hY => ?_⟩
    · rw [hExact, toNat_sub_of_le hX]
      simp only [classifyExact, beyond_mirror_iff]
    · rw [hExact, toNat_sub_of_le hY]
      simp only [classifyExact, beyond_mirror_iff]

/-- The widest margin there can be on the scale of a delivered machine, and the first sample
beyond the dead zone. -/
theorem opposite_deflections_with_widest_margin :
    let settings : Settings := { stick := { margin := 2046 } }
    let stick := settings.stick
    settings.invalid? = none ∧ (2050 : UInt16) ≤ stick.fullScale ∧
      stick.classify 2050 0 true = { up := true, right := true } ∧
      stick.classify (stick.fullScale - 2050) 0 true = { up := true, left := true } := by
  intro settings stick
  have hValid : settings.invalid? = none := by decide
  have hX : (2050 : UInt16) ≤ stick.fullScale := by decide
  obtain ⟨_, _, _, hReadings⟩ := opposite_deflections_apart settings hValid
  obtain ⟨_, _, _, _, hMirror, _⟩ := hReadings 2050 0 true
  exact ⟨hValid, hX, by decide, (hMirror hX).trans (by decide)⟩

end StickSettings

end TapeCutter
