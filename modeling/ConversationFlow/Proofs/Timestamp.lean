import ConversationFlow.Proofs.Number.Digits
import ConversationFlow.Timestamp.Reader

/-!
# Timestamps that are written and read

The parts of a timestamp are written with a fixed number of digits each, and read by their places.
-/

namespace ConversationFlow

theorem eq_ok_of_mapError {ε δ α : Type} {f : ε → δ} {outcome : Except ε α} {a : α}
    (h : outcome.mapError f = .ok a) : outcome = .ok a := by
  cases outcome with
  | ok b => exact congrArg Except.ok (Except.ok.inj h)
  | error e => cases h

namespace Timestamp

theorem padded_one {n : Nat} (hn : n < 10) : padded 1 n = [Nat.digitChar n] := by
  rw [padded, digitsOf, Nat.toDigits_of_lt_base hn]
  rfl

theorem padded_succ {width : Nat} (hwidth : 0 < width) (n : Nat) :
    padded (width + 1) n = padded width (n / 10) ++ [Nat.digitChar (n % 10)] := by
  rcases Nat.lt_or_ge n 10 with hsmall | hlarge
  · obtain ⟨width, rfl⟩ : ∃ less, width = less + 1 := ⟨width - 1, by omega⟩
    rw [Nat.div_eq_of_lt hsmall, Nat.mod_eq_of_lt hsmall, padded, padded, digitsOf, digitsOf,
      Nat.toDigits_of_lt_base hsmall, Nat.toDigits_of_lt_base (by decide), List.length_singleton,
      List.length_singleton, Nat.add_sub_cancel, Nat.add_sub_cancel, List.replicate_succ']
    rfl
  · have hdigits : digitsOf n = digitsOf (n / 10) ++ [Nat.digitChar (n % 10)] :=
      Nat.toDigits_of_base_le (by decide) hlarge
    rw [padded, padded, hdigits, List.length_append, List.length_singleton, Nat.add_sub_add_right,
      List.append_assoc]

theorem length_padded {width n : Nat} (hwidth : 0 < width) (hn : n < 10 ^ width) :
    (padded width n).length = width := by
  induction width generalizing n with
  | zero => omega
  | succ width ih =>
    rcases Nat.eq_zero_or_pos width with rfl | hpos
    · rw [padded_one (by simpa using hn), List.length_singleton]
    · have hquotient : n / 10 < 10 ^ width := Nat.div_lt_of_lt_mul (by rwa [Nat.pow_succ'] at hn)
      rw [padded_succ hpos, List.length_append, ih hpos hquotient, List.length_singleton]

theorem padded_two {n : Nat} (hn : n < 100) :
    padded 2 n = [Nat.digitChar (n / 10), Nat.digitChar (n % 10)] := by
  rw [padded_succ (by decide), padded_one (by omega)]
  rfl

theorem padded_four {n : Nat} (hn : n < 10000) :
    padded 4 n = [Nat.digitChar (n / 10 / 10 / 10), Nat.digitChar (n / 10 / 10 % 10),
      Nat.digitChar (n / 10 % 10), Nat.digitChar (n % 10)] := by
  rw [padded_succ (by decide), padded_succ (by decide), padded_succ (by decide),
    padded_one (by omega)]
  rfl

theorem isDigit_of_mem_padded {width n : Nat} {c : Char} (hc : c ∈ padded width n) :
    c.isDigit = true :=
  isDigit_of_mem_zeros_append hc

theorem digit?_digitChar {d : Nat} (hd : d < 10) : digit? (some (Nat.digitChar d)) = some d := by
  have hdigits : ∀ d < 10, digit? (some (Nat.digitChar d)) = some d := by decide
  exact hdigits d hd

theorem twoDigits?_padded {n : Nat} (hn : n < 100) (rest : List Char) :
    twoDigits? (padded 2 n ++ rest) = some (n, rest) := by
  rw [padded_two hn]
  simp only [List.cons_append, List.nil_append, twoDigits?,
    digit?_digitChar (show n / 10 < 10 by omega), digit?_digitChar (Nat.mod_lt n (by decide)),
    Nat.div_add_mod]

theorem month_lt_of_pos_daysInMonth {year month : Nat} (h : 0 < daysInMonth year month) :
    month < 100 := by
  unfold daysInMonth at h
  split at h <;> omega

theorem daysInMonth_le (year month : Nat) : daysInMonth year month ≤ 31 := by
  unfold daysInMonth
  repeat' split
  all_goals omega

theorem datePrefix_text (d : Date) (rest : List Char) :
    datePrefix (padded 4 d.year ++ '-' :: padded 2 d.month ++ '-' :: padded 2 d.day ++ rest) =
      .ok ((d.year, d.month, d.day), rest) := by
  obtain ⟨year, month, day, hyear, hlast, hday, hdays⟩ := d
  have hmonth := month_lt_of_pos_daysInMonth (Nat.lt_of_lt_of_le hday hdays)
  have hmost := daysInMonth_le year month
  dsimp only
  rw [padded_four (by omega), padded_two hmonth, padded_two (show day < 100 by omega)]
  have hsize (c : Char) := c.utf8Size_pos
  unfold datePrefix
  rw [if_neg]
  · have hthousands := digit?_digitChar (show year / 10 / 10 / 10 < 10 by omega)
    have hhundreds := digit?_digitChar (show year / 10 / 10 % 10 < 10 by omega)
    have htens := digit?_digitChar (show year / 10 % 10 < 10 by omega)
    have hones := digit?_digitChar (show year % 10 < 10 by omega)
    have hmonthTens := digit?_digitChar (show month / 10 < 10 by omega)
    have hmonthOnes := digit?_digitChar (show month % 10 < 10 by omega)
    have hdayTens := digit?_digitChar (show day / 10 < 10 by omega)
    have hdayOnes := digit?_digitChar (show day % 10 < 10 by omega)
    have hyearValue : 1000 * (year / 10 / 10 / 10) + 100 * (year / 10 / 10 % 10) +
        10 * (year / 10 % 10) + year % 10 = year := by omega
    have hsome : ¬daysInMonth year month = 0 := by omega
    simp [hthousands, hhundreds, htens, hones, hmonthTens, hmonthOnes, hdayTens, hdayOnes,
      hyearValue, Nat.div_add_mod, hsome]
    omega
  · simp only [List.cons_append, List.nil_append, List.map_cons, List.sum_cons]
    have h₁ := hsize (Nat.digitChar (year / 10 / 10 / 10))
    have h₂ := hsize (Nat.digitChar (year / 10 / 10 % 10))
    have h₃ := hsize (Nat.digitChar (year / 10 % 10))
    have h₄ := hsize (Nat.digitChar (year % 10))
    have h₅ := hsize (Nat.digitChar (month / 10))
    have h₆ := hsize (Nat.digitChar (month % 10))
    have h₇ := hsize (Nat.digitChar (day / 10))
    have h₈ := hsize (Nat.digitChar (day % 10))
    have h₉ := hsize '-'
    omega

theorem offsetSeconds?_padded {n : Nat} (hn : n < 1440) :
    offsetSeconds? (padded 2 (n / 60) ++ ':' :: padded 2 (n % 60)) = some ((60 * n : Nat) : Int) := by
  have hminutes := twoDigits?_padded (show n % 60 < 100 by omega) []
  rw [List.append_nil] at hminutes
  have hvalue : 60 * (n / 60) + n % 60 = n := Nat.div_add_mod n 60
  have hhours : n / 60 < 24 := by omega
  have hrest : n % 60 < 60 := Nat.mod_lt n (by decide)
  rw [offsetSeconds?, twoDigits?_padded (by omega)]
  simp only [hminutes, hhours, hrest, and_self, if_true, hvalue]

/-- The whole minutes of an offset, in seconds. -/
def wholeMinutes (seconds : Int) : Int :=
  if seconds < 0 then -(60 * (seconds.natAbs / 60) : Nat) else (60 * (seconds.natAbs / 60) : Nat)

theorem wholeMinutes_eq_iff {seconds : Int} : wholeMinutes seconds = seconds ↔ 60 ∣ seconds := by
  unfold wholeMinutes
  split <;> omega

theorem natAbs_wholeMinutes_le (seconds : Int) : (wholeMinutes seconds).natAbs ≤ seconds.natAbs := by
  unfold wholeMinutes
  split <;> omega

theorem wholeMinutes_wholeMinutes (seconds : Int) :
    wholeMinutes (wholeMinutes seconds) = wholeMinutes seconds := by
  rw [wholeMinutes_eq_iff, wholeMinutes]
  split <;> omega

/-- An offset is read as its whole minutes. -/
theorem offsetPart_offsetText {offset : Option Int} (h : (offset.getD 0).natAbs < 86400) :
    offsetPart (offsetText offset) = some (offset.map wholeMinutes) := by
  cases offset with
  | none => rfl
  | some seconds =>
    by_cases hzero : seconds = 0
    · rw [hzero]
      rfl
    · rw [Option.getD_some] at h
      have hread := offsetSeconds?_padded (show seconds.natAbs / 60 < 1440 by omega)
      have htext : offsetText (some seconds) = (if seconds < 0 then '-' else '+') ::
          (padded 2 (seconds.natAbs / 60 / 60) ++ ':' :: padded 2 (seconds.natAbs / 60 % 60)) := by
        unfold offsetText
        split <;> simp_all
      rw [htext]
      by_cases hsign : seconds < 0
      · have hvalue : -((60 * (seconds.natAbs / 60) : Nat) : Int) = wholeMinutes seconds := by
          rw [wholeMinutes, if_pos hsign]
        simp only [hsign, if_true, offsetPart, hread, Option.map_some, hvalue]
      · have hvalue : ((60 * (seconds.natAbs / 60) : Nat) : Int) = wholeMinutes seconds := by
          rw [wholeMinutes, if_neg hsign]
        simp only [hsign, if_false, offsetPart, hread, Option.map_some, hvalue]

theorem exists_offsetText (offset : Option Int) : offsetText offset = [] ∨
    ∃ c rest, offsetText offset = c :: rest ∧ c.isDigit = false ∧ c ≠ '.' ∧ c ≠ ',' := by
  unfold offsetText
  split
  · exact .inl rfl
  · exact .inr ⟨'Z', [], rfl, by decide⟩
  · next minutes _ =>
    refine .inr ⟨_, _, rfl, ?_⟩
    by_cases hsign : minutes < 0
    · simp only [hsign, if_true]
      decide
    · simp only [hsign, if_false]
      decide

theorem takeWhile_padded_append (width n : Nat) {rest : List Char}
    (hrest : rest = [] ∨ ∃ c more, rest = c :: more ∧ c.isDigit = false ∧ c ≠ '.' ∧ c ≠ ',') :
    (padded width n ++ rest).takeWhile Char.isDigit = padded width n ∧
      (padded width n ++ rest).dropWhile Char.isDigit = rest := by
  have hdigits : ∀ c ∈ padded width n, c.isDigit = true := fun _ => isDigit_of_mem_padded
  rw [List.takeWhile_append_of_pos hdigits, List.dropWhile_append_of_pos hdigits]
  rcases hrest with rfl | ⟨c, more, rfl, hc, -⟩
  · simp
  · simp [hc]

theorem fractionMicroseconds_padded {n : Nat} (hn : n < 1000000) :
    fractionMicroseconds (padded 6 n) = n := by
  have hlength : (padded 6 n).length = 6 := length_padded (by decide) hn
  have hvalue : Nat.ofDigitChars 10 (padded 6 n) 0 = n := ofDigitChars_zeros_append _ _
  rw [fractionMicroseconds, List.take_of_length_le (by omega), hlength, hvalue]
  exact Nat.mul_one n

theorem secondsPart_text {second microsecond : Nat} (hsecond : second < 100)
    (hmicrosecond : microsecond < 1000000) (offset : Option Int) :
    secondsPart (':' :: (padded 2 second ++ ((if microsecond = 0 then [] else
      '.' :: padded 6 microsecond) ++ offsetText offset))) =
      some ((second, microsecond), offsetText offset) := by
  have hoffset := exists_offsetText offset
  rw [secondsPart, twoDigits?_padded hsecond]
  by_cases hnone : microsecond = 0
  · rw [if_pos hnone, List.nil_append, hnone]
    rcases hoffset with hempty | ⟨c, rest, hrest, -, hpoint, hcomma⟩
    · rw [hempty]
    · simp [hrest, hpoint, hcomma]
  · obtain ⟨htake, hdrop⟩ := takeWhile_padded_append 6 microsecond hoffset
    have hdigits : (padded 6 microsecond).isEmpty = false := by
      rw [List.isEmpty_eq_false_iff, ← List.length_pos_iff, length_padded (by decide) hmicrosecond]
      decide
    rw [if_neg hnone, List.cons_append]
    simp [htake, hdrop, hdigits, fractionMicroseconds_padded hmicrosecond]

end Timestamp

/-- The clock as its text gives it: only the whole minutes of the offset are left. -/
def Clock.written (c : Clock) : Clock :=
  { c with offset := c.offset.map Timestamp.wholeMinutes }

theorem Clock.IsPossible.written {c : Clock} (h : c.IsPossible) : c.written.IsPossible := by
  obtain ⟨hhour, hminute, hsecond, hmicrosecond, hoffset⟩ := h
  refine ⟨hhour, hminute, hsecond, hmicrosecond, ?_⟩
  rw [Clock.written]
  cases hseconds : c.offset with
  | none => exact Nat.zero_lt_succ _
  | some seconds =>
    rw [hseconds] at hoffset
    exact Nat.lt_of_le_of_lt (Timestamp.natAbs_wholeMinutes_le seconds) hoffset

namespace Timestamp

/-- The timestamp as its text gives it. -/
def written (t : Timestamp) : Timestamp :=
  ⟨t.date, t.clock.written, t.possible.written⟩

/-- The offset is a whole number of minutes, which none at all counts as. -/
def HasMinuteOffset (t : Timestamp) : Prop :=
  60 ∣ t.clock.offset.getD 0

instance (t : Timestamp) : Decidable t.HasMinuteOffset := by
  unfold HasMinuteOffset
  infer_instance

theorem written_eq_iff {t : Timestamp} : t.written = t ↔ t.HasMinuteOffset := by
  obtain ⟨date, ⟨hour, minute, second, microsecond, offset⟩, hpossible⟩ := t
  cases offset with
  | none => simp [written, Clock.written, HasMinuteOffset]
  | some seconds => simp [written, Clock.written, HasMinuteOffset, wholeMinutes_eq_iff]

theorem written_written (t : Timestamp) : t.written.written = t.written := by
  obtain ⟨date, ⟨hour, minute, second, microsecond, offset⟩, hpossible⟩ := t
  cases offset with
  | none => rfl
  | some seconds => simp [written, Clock.written, wholeMinutes_wholeMinutes]

theorem hasMinuteOffset_written (t : Timestamp) : t.written.HasMinuteOffset :=
  written_eq_iff.1 t.written_written

/-! ### Offsets that are read -/

theorem dvd_of_offsetSeconds? {s : List Char} {n : Int} (h : offsetSeconds? s = some n) : 60 ∣ n := by
  unfold offsetSeconds? at h
  dsimp only at h
  repeat' split at h
  all_goals cases h
  omega

theorem dvd_of_offsetPart {s : List Char} {offset : Option Int} (h : offsetPart s = some offset) :
    60 ∣ offset.getD 0 := by
  unfold offsetPart at h
  split at h
  · cases h
    exact Int.dvd_zero 60
  · cases h
    exact Int.dvd_zero 60
  · cases h
    exact Int.dvd_zero 60
  · obtain ⟨n, hn, rfl⟩ := Option.map_eq_some_iff.1 h
    exact dvd_of_offsetSeconds? hn
  · obtain ⟨n, hn, rfl⟩ := Option.map_eq_some_iff.1 h
    exact Int.dvd_neg.2 (dvd_of_offsetSeconds? hn)
  · split at h
    · obtain ⟨n, hn, rfl⟩ := Option.map_eq_some_iff.1 h
      exact Int.dvd_neg.2 (dvd_of_offsetSeconds? hn)
    · cases h

theorem dvd_of_clock? {s : List Char} {c : Clock} (h : clock? s = some c) :
    60 ∣ c.offset.getD 0 := by
  unfold clock? at h
  dsimp only at h
  repeat' split at h
  all_goals cases h
  next hoffset _ => exact dvd_of_offsetPart hoffset

theorem dvd_of_clockAfterDate? {s : List Char} {c : Clock} (h : clockAfterDate? s = some c) :
    60 ∣ c.offset.getD 0 := by
  unfold clockAfterDate? at h
  split at h
  · cases h
    exact Int.dvd_zero 60
  · split at h
    · exact dvd_of_clock? h
    · cases h

theorem clock_of_ofParts? {date : Date} {clock : Clock} {t : Timestamp}
    (h : ofParts? date clock = some t) : t.clock = clock := by
  unfold ofParts? at h
  split at h
  · cases h
    rfl
  · cases h

theorem hasMinuteOffset_of_ofUnix {seconds : Int} {microseconds : Nat} {t : Timestamp}
    (h : ofUnix seconds microseconds = .ok t) : t.HasMinuteOffset := by
  unfold ofUnix at h
  dsimp only at h
  repeat' split at h
  all_goals cases h
  next hsome =>
    obtain ⟨date, -, hparts⟩ := Option.bind_eq_some_iff.1 hsome
    rw [HasMinuteOffset, clock_of_ofParts? hparts]
    exact Int.dvd_zero 60

theorem hasMinuteOffset_of_ofInteger {n : Int} {t : Timestamp} (h : ofInteger n = .ok t) :
    t.HasMinuteOffset := by
  unfold ofInteger at h
  split at h <;> exact hasMinuteOffset_of_ofUnix h

theorem hasMinuteOffset_of_ofBinary64 {x : Binary64} {t : Timestamp} (h : ofBinary64 x = .ok t) :
    t.HasMinuteOffset := by
  unfold ofBinary64 at h
  split at h
  · cases h
  · cases h
  · dsimp only at h
    split at h
    · exact hasMinuteOffset_of_ofUnix h
    · cases h

theorem hasMinuteOffset_of_ofText {s : String} {t : Timestamp} (h : ofText s = .ok t) :
    t.HasMinuteOffset := by
  unfold ofText at h
  dsimp only at h
  split at h
  · split at h
    · cases h
    · next clock hclock =>
      split at h
      · next hsome =>
        cases h
        obtain ⟨date, -, hparts⟩ := Option.bind_eq_some_iff.1 hsome
        rw [HasMinuteOffset, clock_of_ofParts? hparts]
        exact dvd_of_clockAfterDate? hclock
      · cases h
  · split at h
    · exact hasMinuteOffset_of_ofInteger (eq_ok_of_mapError h)
    · exact hasMinuteOffset_of_ofBinary64 (eq_ok_of_mapError h)
    · cases h

/-- The offset is none, or a minute at least: only such a one is written with the sign and the digits
that it keeps once it was read. -/
def KeepsOffset (t : Timestamp) : Prop :=
  t.clock.offset.getD 0 = 0 ∨ 60 ≤ (t.clock.offset.getD 0).natAbs

instance (t : Timestamp) : Decidable t.KeepsOffset := by
  unfold KeepsOffset
  infer_instance

theorem HasMinuteOffset.keepsOffset {t : Timestamp} (h : t.HasMinuteOffset) : t.KeepsOffset := by
  unfold HasMinuteOffset at h
  unfold KeepsOffset
  omega

theorem offsetText_wholeMinutes_iff {seconds : Int} :
    offsetText (some (wholeMinutes seconds)) = offsetText (some seconds) ↔
      seconds = 0 ∨ 60 ≤ seconds.natAbs := by
  by_cases hzero : seconds = 0
  · subst hzero
    exact iff_of_true rfl (.inl rfl)
  · by_cases hless : seconds.natAbs < 60
    · have hnone : wholeMinutes seconds = 0 := by
        unfold wholeMinutes
        split <;> omega
      refine iff_of_false ?_ (by omega)
      rw [hnone]
      unfold offsetText
      split <;> simp_all
    · refine iff_of_true ?_ (by omega)
      have hminutes : (wholeMinutes seconds).natAbs / 60 = seconds.natAbs / 60 := by
        unfold wholeMinutes
        split <;> omega
      have hsign : wholeMinutes seconds < 0 ↔ seconds < 0 := by
        unfold wholeMinutes
        split <;> omega
      have hsome : wholeMinutes seconds ≠ 0 := by omega
      unfold offsetText
      split <;> simp_all

/-- A timestamp that was written and read is written as before exactly if its offset is kept. -/
theorem text_written_iff {t : Timestamp} : t.written.text = t.text ↔ t.KeepsOffset := by
  obtain ⟨date, ⟨hour, minute, second, microsecond, offset⟩, hpossible⟩ := t
  have hoffset : offsetText (offset.map wholeMinutes) = offsetText offset ↔
      offset.getD 0 = 0 ∨ 60 ≤ (offset.getD 0).natAbs := by
    cases offset with
    | none => simp
    | some seconds => exact offsetText_wholeMinutes_iff
  rw [KeepsOffset, ← hoffset, text, text, String.ofList_inj]
  exact List.append_right_inj _

theorem clock?_text {c : Clock} (h : c.IsPossible) :
    clock? (padded 2 c.hour ++ ':' :: (padded 2 c.minute ++ ':' :: (padded 2 c.second ++
      ((if c.microsecond = 0 then [] else '.' :: padded 6 c.microsecond) ++
        offsetText c.offset)))) = some c.written := by
  obtain ⟨hhour, hminute, hsecond, hmicrosecond, hoffset⟩ := id h
  have hhourRead := twoDigits?_padded (show c.hour < 100 by omega)
  have hminuteRead := twoDigits?_padded (show c.minute < 100 by omega)
  have hsecondRead := secondsPart_text (show c.second < 100 by omega) hmicrosecond c.offset
  have hoffsetRead := offsetPart_offsetText hoffset
  rw [clock?, hhourRead]
  simp only [hminuteRead, hsecondRead, hoffsetRead]
  exact if_pos h.written

/-- A timestamp is read as it was written, but for seconds of its offset. -/
theorem ofText_text (t : Timestamp) : ofText t.text = .ok t.written := by
  obtain ⟨date, clock, hpossible⟩ := t
  have hclock := clock?_text hpossible
  have hdate : Date.ofParts? date.year date.month date.day = some date := by
    rw [Date.ofParts?, dif_pos date.valid]
  have hparts : ofParts? date clock.written = some ⟨date, clock.written, hpossible.written⟩ :=
    dif_pos hpossible.written
  have htext : (text ⟨date, clock, hpossible⟩).toList =
      padded 4 date.year ++ '-' :: padded 2 date.month ++ '-' :: padded 2 date.day ++
        'T' :: (padded 2 clock.hour ++ ':' :: (padded 2 clock.minute ++ ':' ::
          (padded 2 clock.second ++
          ((if clock.microsecond = 0 then [] else '.' :: padded 6 clock.microsecond) ++
            offsetText clock.offset)))) := by
    rw [text, String.toList_ofList]
    simp only [List.append_assoc, List.cons_append]
  rw [ofText, htext, datePrefix_text]
  simp only [clockAfterDate?, true_or, if_true, hclock, hdate, Option.bind_some, hparts]
  rfl

end Timestamp

end ConversationFlow
