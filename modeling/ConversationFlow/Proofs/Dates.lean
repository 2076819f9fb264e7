import ConversationFlow.Metadata
import ConversationFlow.Proofs.Schema.Accepted
import ConversationFlow.Proofs.Timestamp

/-!
# Dates of metadata

A date that is read has an offset of whole minutes, and its text gives all of it. Only a date that was
handed in as such can have seconds in its offset, and these its text leaves out.
-/

namespace ConversationFlow

open Schema

theorem hasMinuteOffset_of_timestamp {source : Source} {v : Json} {t : Timestamp}
    (h : timestamp source v = .accepted t) : t.HasMinuteOffset := by
  have hdate {v : Json} {ε : Type} {f : ε → Timestamp.Refusal} {outcome : Except ε Timestamp}
      (h : ofTimestamp v (outcome.mapError f) = .accepted t) : outcome = .ok t := by
    cases outcome with
    | ok other => cases h; rfl
    | error => cases h
  unfold timestamp at h
  split at h
  · split at h
    · exact Timestamp.hasMinuteOffset_of_ofInteger (hdate h)
    · split at h
      · cases h
      · exact Timestamp.hasMinuteOffset_of_ofBinary64 (hdate h)
      · cases h
  · exact Timestamp.hasMinuteOffset_of_ofBinary64 (hdate h)
  · cases h
  · next s =>
    cases htext : Timestamp.ofText s with
    | ok other =>
      rw [htext] at h
      cases h
      exact Timestamp.hasMinuteOffset_of_ofText htext
    | error refusal =>
      rw [htext] at h
      cases h
  · cases h

namespace Metadata

/-- The metadata as their text gives them. -/
def written (m : Metadata) : Metadata :=
  { m with
    createdAt := m.createdAt.written
    updatedAt := m.updatedAt.written
    publishedAt := m.publishedAt.map Timestamp.written }

/-- Every date of the metadata has a property. -/
structure EachDate (P : Timestamp → Prop) (m : Metadata) : Prop where
  createdAt : P m.createdAt
  updatedAt : P m.updatedAt
  publishedAt : ∀ t, m.publishedAt = some t → P t

/-- No date has seconds in its offset. -/
def HasMinuteOffsets (m : Metadata) : Prop :=
  m.EachDate Timestamp.HasMinuteOffset

def KeepsOffsets (m : Metadata) : Prop :=
  m.EachDate Timestamp.KeepsOffset

theorem EachDate.mono {P Q : Timestamp → Prop} {m : Metadata} (h : m.EachDate P)
    (hPQ : ∀ t, P t → Q t) : m.EachDate Q :=
  ⟨hPQ _ h.createdAt, hPQ _ h.updatedAt, fun t ht => hPQ t (h.publishedAt t ht)⟩

theorem HasMinuteOffsets.keepsOffsets {m : Metadata} (h : m.HasMinuteOffsets) : m.KeepsOffsets :=
  h.mono fun _ => Timestamp.HasMinuteOffset.keepsOffset

theorem written_eq_iff {m : Metadata} : m.written = m ↔ m.HasMinuteOffsets := by
  obtain ⟨name, description, createdAt, updatedAt, publishedAt, createdBy, status, tags, inboxId⟩ := m
  constructor
  · intro h
    simp only [written, mk.injEq, true_and, and_true, Timestamp.written_eq_iff] at h
    obtain ⟨hcreatedAt, hupdatedAt, hpublishedAt⟩ := h
    refine ⟨hcreatedAt, hupdatedAt, ?_⟩
    rintro t rfl
    exact Timestamp.written_eq_iff.1 (Option.some.inj hpublishedAt)
  · rintro ⟨hcreatedAt, hupdatedAt, hpublishedAt⟩
    simp only [written, Timestamp.written_eq_iff.2 hcreatedAt, Timestamp.written_eq_iff.2 hupdatedAt]
    cases publishedAt with
    | none => rfl
    | some t => rw [Option.map_some, Timestamp.written_eq_iff.2 (hpublishedAt t rfl)]

instance (m : Metadata) : Decidable m.HasMinuteOffsets :=
  decidable_of_iff _ written_eq_iff

theorem written_written (m : Metadata) : m.written.written = m.written := by
  refine written_eq_iff.2 ⟨Timestamp.hasMinuteOffset_written _, Timestamp.hasMinuteOffset_written _,
    fun t ht => ?_⟩
  obtain ⟨other, -, rfl⟩ := Option.map_eq_some_iff.1 ht
  exact Timestamp.hasMinuteOffset_written other

variable {stamp : Option Timestamp} {source : Source} {f : Fields} {m : Metadata}

theorem dates_of_ofFields (h : ofFields stamp source f = .accepted m) :
    stamped stamp source f Keys.createdAt = .accepted m.createdAt ∧
      stamped stamp source f Keys.updatedAt = .accepted m.updatedAt ∧
      f.optional Keys.publishedAt (timestamp source) = .accepted m.publishedAt := by
  simp only [ofFields, Reading.seq_eq_accepted_iff, Reading.map_eq_accepted_iff] at h
  obtain ⟨_, ⟨_, ⟨_, ⟨_, ⟨_, ⟨_, ⟨_, ⟨_, ⟨_, -, rfl⟩, _, -, rfl⟩, createdAt, hcreatedAt, rfl⟩,
    updatedAt, hupdatedAt, rfl⟩, publishedAt, hpublishedAt, rfl⟩, _, -, rfl⟩, _, -, rfl⟩, _, -, rfl⟩,
    _, -, rfl⟩ := h
  exact ⟨hcreatedAt, hupdatedAt, hpublishedAt⟩

theorem stamped_written (now : Timestamp) (key : Key) :
    stamped (some now.written) source f key =
      Timestamp.written <$> stamped (some now) source f key := by
  unfold stamped Fields.defaulted
  cases f.find? key with
  | none => rfl
  | some found =>
    obtain ⟨spelling, v⟩ := found
    dsimp only
    cases hread : timestamp source v with
    | accepted t =>
      have ht : t.written = t := Timestamp.written_eq_iff.2 (hasMinuteOffset_of_timestamp hread)
      exact congrArg Reading.accepted ht.symm
    | refused findings => rfl
    | untagged container => rfl

/-- The metadata with those dates that can be stamped as their texts give them. -/
def withWrittenStamps (m : Metadata) : Metadata :=
  { m with
    createdAt := m.createdAt.written
    updatedAt := m.updatedAt.written }

theorem ofFields_written (now : Timestamp) :
    ofFields (some now.written) source f = withWrittenStamps <$> ofFields (some now) source f := by
  simp only [ofFields, stamped_written, map_seq, seq_map_assoc, Functor.map_map]
  rfl

/-- Every date is one that was read, or the one that is stamped. -/
theorem eachDate_of_ofFields {P : Timestamp → Prop}
    (hread : ∀ v, (timestamp source v).Yields P) (hstamp : ∀ now, stamp = some now → P now)
    (h : ofFields stamp source f = .accepted m) : m.EachDate P := by
  obtain ⟨hcreatedAt, hupdatedAt, hpublishedAt⟩ := dates_of_ofFields h
  have hstamped (key : Key) : (stamped stamp source f key).Yields P := by
    unfold stamped
    split
    · next now => exact Fields.yields_defaulted (hstamp now rfl) fun field _ => hread field.2
    · exact Fields.yields_required fun field _ => hread field.2
  have hoptional : (f.optional Keys.publishedAt (timestamp source)).Yields
      fun value => ∀ t, value = some t → P t :=
    Fields.yields_optional fun field _ => hread field.2
  exact ⟨hstamped _ _ hcreatedAt, hstamped _ _ hupdatedAt, hoptional _ hpublishedAt⟩

theorem hasMinuteOffsets_of_read {v : Json} (h : Record.read source v = .accepted m) :
    m.HasMinuteOffsets := by
  obtain ⟨entries, rfl, hfields⟩ := exists_of_read h
  exact eachDate_of_ofFields (fun _ _ => hasMinuteOffset_of_timestamp) (by simp) hfields

theorem keepsOffsets_of_stampedOfFields {now : Timestamp} (hnow : now.KeepsOffset)
    (h : stampedOfFields now f = .accepted m) : m.KeepsOffsets := by
  obtain ⟨hall, -⟩ := Reading.checkedBy_eq_accepted_iff.1 h
  rw [seqLeft_eq] at hall
  obtain ⟨_, hconst, _, -, rfl⟩ := Reading.seq_eq_accepted_iff.1 hall
  obtain ⟨m, hfields, rfl⟩ := Reading.map_eq_accepted_iff.1 hconst
  refine eachDate_of_ofFields (fun _ t ht => ?_) ?_ hfields
  · exact (hasMinuteOffset_of_timestamp ht).keepsOffset
  · rintro _ ⟨⟩
    exact hnow

end Metadata

end ConversationFlow
