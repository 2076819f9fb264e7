import ConversationFlow.Proofs.Compile.Acceptance
import ConversationFlow.Proofs.Compile.Call
import ConversationFlow.Proofs.Dates
import ConversationFlow.Proofs.Executable.Ordinary
import ConversationFlow.Proofs.Schema.Completion

/-!
# Stamped metadata

The metadata of an object are those that a document with its fields holds, once the current time is
put in for each date that is given under neither of its spellings. So whatever is found wrong with
them is reported as it is for a document, unless the object has the one key that is reserved: that
one ends the reading before any field is looked at.
-/

namespace ConversationFlow

open Schema

namespace Metadata

variable {now : Timestamp} {f : Fields}

/-- The fields with the current time as each date that is not given. -/
def dated (now : Timestamp) (f : Fields) : Fields :=
  (f.complete Keys.createdAt (writeTimestamp now)).complete Keys.updatedAt (writeTimestamp now)

theorem timestamp_writeTimestamp (source : Source) (t : Timestamp) :
    timestamp source (writeTimestamp t) = .accepted t.written := by
  simp [writeTimestamp, timestamp, Timestamp.ofText_text, ofTimestamp]

/-- No field of metadata is given under the plain spelling of another one. -/
theorem plain_notMem_spellings : ∀ key ∈ Record.keys Metadata, ∀ other ∈ Record.keys Metadata,
    other ≠ key → key.plain ∉ other.spellings := by
  decide

theorem find?_dated {key : Key} (hkey : key = Keys.createdAt ∨ key = Keys.updatedAt) :
    (dated now f).find? key = some ((f.find? key).getD (key.plain, writeTimestamp now)) := by
  rcases hkey with rfl | rfl
  · rw [dated, Fields.find?_complete_of_ne (by decide), Fields.find?_complete]
  · rw [dated, Fields.find?_complete, Fields.find?_complete_of_ne (by decide)]

theorem find?_dated_of_ne {key : Key} (hcreated : Keys.createdAt.plain ∉ key.spellings)
    (hupdated : Keys.updatedAt.plain ∉ key.spellings) : (dated now f).find? key = f.find? key := by
  rw [dated, Fields.find?_complete_of_ne hupdated, Fields.find?_complete_of_ne hcreated]

theorem closed_dated (now : Timestamp) (f : Fields) :
    (dated now f).closed (Record.keys Metadata) = f.closed (Record.keys Metadata) := by
  rw [dated, Fields.closed_complete (by decide) (plain_notMem_spellings _ (by decide)),
    Fields.closed_complete (by decide) (plain_notMem_spellings _ (by decide))]

theorem spelled_dated (now : Timestamp) (f : Fields) : (dated now f).spelled = f.spelled := by
  rw [dated, Fields.spelled_complete rfl, Fields.spelled_complete rfl]

theorem ofFields_dated :
    ofFields none .values (dated now f) = ofFields (some now.written) .values f := by
  have hdefaulted {α : Type} (key : Key) (fallback : α) (read : Json → Reading α)
      (hcreated : Keys.createdAt.plain ∉ key.spellings)
      (hupdated : Keys.updatedAt.plain ∉ key.spellings) :
      (dated now f).defaulted key fallback read = f.defaulted key fallback read := by
    rw [Fields.defaulted, Fields.defaulted, find?_dated_of_ne hcreated hupdated]
  have hcreatedAt := Fields.required_of_completed (find?_dated (f := f) (.inl rfl))
    (timestamp_writeTimestamp .values now)
  have hupdatedAt := Fields.required_of_completed (find?_dated (f := f) (.inr rfl))
    (timestamp_writeTimestamp .values now)
  simp (disch := decide) only [ofFields, stamped, Fields.optional, hdefaulted, hcreatedAt,
    hupdatedAt]

/-- A document in which the missing dates are put in is read as the stamped metadata, but for seconds of
the offset of the current time. -/
theorem read_dated :
    Record.read .values (dated now f).asJson = withWrittenStamps <$> stampedOfFields now f := by
  calc Record.read .values (dated now f).asJson
    _ = (ofFields none .values (dated now f) <*
          (dated now f).closed (Record.keys Metadata)).checkedBy (dated now f).spelled := rfl
    _ = ((withWrittenStamps <$> ofFields (some now) .values f) <*
          f.closed (Record.keys Metadata)).checkedBy f.spelled := by
      rw [ofFields_dated, ofFields_written, closed_dated, spelled_dated]
    _ = withWrittenStamps <$> stampedOfFields now f := by
      rw [stampedOfFields, Reading.map_checkedBy, seqLeft_eq, seqLeft_eq, map_seq, Functor.map_map,
        Functor.map_map]
      rfl

end Metadata

namespace Compile

open Editor (Graph)

/-- A date is the value that is given under one of its spellings, or the current time if there is
none. -/
inductive IsDateOf (now : Timestamp) (fields : List (Text × Json)) (key : Key) (t : Timestamp) :
    Prop
  | given {spelling : Text} {v : Json} (hspelling : spelling ∈ key.spellings)
    (hgiven : fields.lookup spelling = some v) (hread : timestamp .values v = .accepted t)
  | stamped (habsent : ∀ spelling ∈ key.spellings, spelling ∉ fields.map Prod.fst) (hnow : t = now)

/-- Every key is the spelling of a field, and no field is given twice. -/
structure HasMetadataKeys (fields : List (Text × Json)) : Prop where
  known : ∀ name ∈ fields.map Prod.fst, ∃ key ∈ Record.keys Metadata, name ∈ key.spellings
  once : ∀ key ∈ Record.keys Metadata, key.document ≠ key.plain →
    ¬(key.document ∈ fields.map Prod.fst ∧ key.plain ∈ fields.map Prod.fst)

/-- What the fields of an object come to as metadata: the metadata that a document with the missing
dates holds, as far as texts give dates, findings about that document, or a failure of its own kind
for the reserved key. -/
inductive StampOutcome (now : Timestamp) (fields : List (Text × Json)) :
    Except Failure Metadata → Prop
  | returned {metadata : Metadata} (hkey : reservedKey ∉ fields.map Prod.fst)
    (hread : Record.read .values (Metadata.dated now ⟨fields⟩).asJson =
      .accepted metadata.withWrittenStamps)
    (hcreatedAt : IsDateOf now fields Keys.createdAt metadata.createdAt)
    (hupdatedAt : IsDateOf now fields Keys.updatedAt metadata.updatedAt)
    (hkeys : HasMetadataKeys fields) : StampOutcome now fields (.ok metadata)
  | refused {findings : List Finding} (hkey : reservedKey ∉ fields.map Prod.fst)
    (hread : (Record.read .values (Metadata.dated now ⟨fields⟩).asJson : Reading Metadata) =
      .refused findings) (hfindings : findings ≠ []) :
    StampOutcome now fields (.error (.refused (.invalid (Record.title Metadata) findings)))
  | reserved (hkey : reservedKey ∈ fields.map Prod.fst) :
    StampOutcome now fields (.error (.reservedKey reservedKey))

variable {now : Timestamp} {f : Fields}

theorem isDateOf_of_stamped {key : Key} {t : Timestamp}
    (h : Metadata.stamped (some now) .values f key = .accepted t) : IsDateOf now f.entries key t := by
  rw [Metadata.stamped, Fields.defaulted] at h
  cases hfind : f.find? key with
  | some found =>
    obtain ⟨spelling, v⟩ := found
    rw [hfind] at h
    exact .given (Fields.mem_spellings_of_find? hfind) (Fields.lookup_of_find? hfind)
      (Reading.under_eq_accepted_iff.1 h)
  | none =>
    rw [hfind] at h
    cases h
    exact .stamped (Fields.find?_eq_none_iff.1 hfind) rfl

theorem hasMetadataKeys_of_closed (h : f.closed (Record.keys Metadata) = .accepted ()) :
    HasMetadataKeys f.entries := by
  -- every key is the one under which its field is looked up
  have hused (name : Text) (hname : name ∈ f.entries.map Prod.fst) :
      ∃ key ∈ Record.keys Metadata, ∃ v, f.find? key = some (name, v) := by
    obtain ⟨entry, hentry, rfl⟩ := List.mem_map.1 hname
    exact Fields.exists_of_closed h hentry
  constructor
  · intro name hname
    obtain ⟨key, hkey, v, hfind⟩ := hused name hname
    exact ⟨key, hkey, Fields.mem_spellings_of_find? hfind⟩
  · rintro key hkey hne ⟨hdocument, hplain⟩
    obtain ⟨other, hother, v, hfind⟩ := hused key.plain hplain
    have hsame : other = key := by
      by_contra hdifferent
      exact Metadata.plain_notMem_spellings key hkey other hother hdifferent
        (Fields.mem_spellings_of_find? hfind)
    subst hsame
    -- the spelling of documents wins, so the plain one is not used
    obtain ⟨w, hlookup⟩ : ∃ w, f.entries.lookup other.document = some w :=
      Option.ne_none_iff_exists'.1 fun hnone => lookup_eq_none_iff_notMem.1 hnone hdocument
    rw [Fields.find?, hlookup, Option.some.injEq, Prod.mk.injEq] at hfind
    exact hne hfind.1

theorem runFrom_stampMetadata (fields : List (Text × Json)) (provider : Provider)
    (journal : Journal) :
    (stampMetadata fields).runFrom provider journal =
      if reservedKey ∈ fields.map Prod.fst then (.error (.reservedKey reservedKey), journal)
      else ((Fault.ofReading (Record.title Metadata)
        (Metadata.stampedOfFields provider.now ⟨fields⟩)).mapError .refused, journal) := by
  rw [stampMetadata]
  split
  · rfl
  · rw [Job.runFrom_bind, Job.runFrom_now]
    exact Job.runFrom_of provider journal _

theorem stampOutcome (fields : List (Text × Json)) (provider : Provider) (journal : Journal) :
    StampOutcome provider.now fields ((stampMetadata fields).runFrom provider journal).1 := by
  rw [runFrom_stampMetadata]
  split
  · next hkey => exact .reserved hkey
  · next hkey =>
    have hread : Record.read .values (Metadata.dated provider.now ⟨fields⟩).asJson =
        Metadata.withWrittenStamps <$> Metadata.stampedOfFields provider.now ⟨fields⟩ :=
      Metadata.read_dated
    have hordinary : (Record.read .values (Metadata.dated provider.now ⟨fields⟩).asJson :
      Reading Metadata).Ordinary := ordinary_read _ _
    cases hstamped : Metadata.stampedOfFields provider.now ⟨fields⟩ with
    | accepted metadata =>
      rw [hstamped] at hread
      obtain ⟨hall, -⟩ := Reading.checkedBy_eq_accepted_iff.1 hstamped
      rw [seqLeft_eq] at hall
      obtain ⟨_, hconst, _, hclosed, rfl⟩ := Reading.seq_eq_accepted_iff.1 hall
      obtain ⟨metadata, hfields, rfl⟩ := Reading.map_eq_accepted_iff.1 hconst
      obtain ⟨hcreatedAt, hupdatedAt, -⟩ := Metadata.dates_of_ofFields hfields
      exact .returned hkey hread (isDateOf_of_stamped hcreatedAt) (isDateOf_of_stamped hupdatedAt)
        (hasMetadataKeys_of_closed (f := ⟨fields⟩) hclosed)
    | refused findings =>
      rw [hstamped] at hread
      rw [hread] at hordinary
      exact .refused hkey hread (Reading.ordinary_refused_iff.1 hordinary)
    | untagged container =>
      rw [hstamped] at hread
      rw [hread] at hordinary
      cases hordinary

/-- Metadata that are read keep the offsets of their dates if the current time does. -/
theorem keepsOffsets_of_readMetadata {v : Json} {metadata : Metadata} {provider : Provider}
    {journal : Journal} (hnow : provider.now.KeepsOffset)
    (h : ((readMetadata v).runFrom provider journal).1 = .ok metadata) : metadata.KeepsOffsets := by
  have hstamp {fields : List (Text × Json)}
      (h : ((stampMetadata fields).runFrom provider journal).1 = .ok metadata) :
      metadata.KeepsOffsets := by
    rw [runFrom_stampMetadata] at h
    split at h
    · cases h
    · cases hstamped : Metadata.stampedOfFields provider.now ⟨fields⟩ with
      | accepted other =>
        rw [hstamped] at h
        cases h
        exact Metadata.keepsOffsets_of_stampedOfFields hnow hstamped
      | refused findings =>
        rw [hstamped] at h
        cases h
      | untagged container =>
        rw [hstamped] at h
        cases h
  unfold readMetadata at h
  split at h
  · split at h
    · exact hstamp h
    · cases h
  · exact hstamp h

theorem readMetadata_obj (fields : List (Text × Json)) :
    readMetadata (.obj fields) = stampMetadata fields := by
  cases fields <;> rfl

/-- The metadata of a call are read once its drawing was read. -/
theorem Call.runFrom_coerce_of_readDrawing {call : Call} {provider : Provider} {journal : Journal}
    {g : Graph} (h : (call.readDrawing.runFrom provider journal).1 = .ok g) :
    (call.coerce.runFrom provider journal).1 =
      (call.readData.runFrom provider journal).1.map fun metadata => (g, metadata) := by
  have hsame := (call.traceless_readDrawing provider journal).1
  rw [Call.coerce, Job.runFrom_bind]
  cases hrun : call.readDrawing.runFrom provider journal with
  | mk outcome later =>
    rw [hrun] at h hsame
    subst h hsame
    dsimp only
    rw [bind_pure_comp, Job.runFrom_map]

/-- Metadata that are handed in as an object are stamped, and a compilation goes on with what they
come to: it fails as they fail, and else it compiles the drawing with them. -/
theorem stamped_of_object [Host] (fields : List (Text × Json)) (provider : Provider)
    (journal : Journal) :
    let outcome := ((stampMetadata fields).runFrom provider journal).1
    StampOutcome provider.now fields outcome ∧
    ∀ (settings : Settings) (drawing : Handed Graph) (g : Graph),
      let call : Call := ⟨settings, drawing, .document (.obj fields)⟩
      (call.readDrawing.runFrom provider journal).1 = .ok g →
      (∀ metadata, outcome = .ok metadata → call.compile.runFrom provider journal =
        (compileGraph settings g metadata).runFrom provider journal) ∧
      ∀ failure, outcome = .error failure →
        call.compile.runFrom provider journal = (.error failure, journal) := by
  intro outcome
  refine ⟨stampOutcome fields provider journal, ?_⟩
  intro settings drawing g call hdrawing
  have hcoerce := call.runFrom_coerce_of_readDrawing hdrawing
  rw [show call.readData = stampMetadata fields from readMetadata_obj fields] at hcoerce
  constructor
  · intro metadata hmetadata
    refine Call.runFrom_compile_of_coerce (hcoerce.trans ?_)
    exact congrArg (Except.map fun metadata => (g, metadata)) hmetadata
  · intro failure hfailure
    refine Call.runFrom_compile_of_not_coerce (hcoerce.trans ?_)
    exact congrArg (Except.map fun metadata => (g, metadata)) hfailure

theorem not_all_invalid_reservedKey :
    ¬∀ (fields : List (Text × Json)) (provider : Provider) (journal : Journal),
      let outcome := ((stampMetadata fields).runFrom provider journal).1
      (∃ metadata, outcome = .ok metadata) ∨ ∃ findings, outcome =
        .error (.refused (.invalid (Record.title Metadata) findings)) := by
  intro h
  rcases h [("self", .int 1)] sampleProvider .empty with ⟨metadata, hrun⟩ | ⟨findings, hrun⟩
  · cases hrun
  · cases hrun

end Compile

end ConversationFlow
