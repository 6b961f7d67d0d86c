import Scriptorium.Interchange.Document
import Scriptorium.Interchange.Settings
import Scriptorium.Proofs.AsideKeys
import Scriptorium.Proofs.JsonText
import Scriptorium.Proofs.ReadingData

/-! Documents and settings as data. What is written is read back as it was, in whatever order the members of a map
are written; a document is read the same when members that hold their defaults are left out. Only a sequence of
an unknown sort that bears a known name is not read back, and no document that was read has one. -/
namespace Scriptorium

namespace Text

theorem strictWord?_toString (word : UInt32) : strictWord? (toString word.toNat) = some word := by
  unfold strictWord?
  rw [toList_toString]
  split
  next heq =>
    rcases Nat.eq_zero_or_pos word.toNat with zero | positive
    · rw [zero] at heq
      cases heq
    · obtain ⟨c,cs,digits,other⟩ := head_toDigits positive
      rw [digits] at heq
      cases heq
      exact absurd rfl other
  next => rw [natural?_toDigits, Option.bind_some, word?_toNat]

end Text

theorem EventKind.read?_name (kind : EventKind) : read? (.text kind.name) = some kind := by
  cases kind <;> decide

theorem ProfileKind.read?_name (kind : ProfileKind) : read? (.text kind.name) = some kind := by
  cases kind <;> decide

theorem FrenchSpacing.read?_name (format : Format) (spacing : FrenchSpacing) :
    read? format (.text spacing.name) = some spacing := by
  cases spacing <;> cases format <;> decide

theorem Direction.read?_name (format : Format) (direction : Direction) :
    read? format (.text direction.name) = some direction := by
  cases direction <;> cases format <;> decide

namespace SequenceKind

/-- Not of an unknown sort under a known name. -/
def IsDistinct (kind : SequenceKind) : Prop :=
  ∀ name, kind = .other name → name ∉ ["main", "introduction", "title", "heading", "footnote", "xref"]

theorem known?_eq_none_iff {name : String} :
    known? name = none ↔ name ∉ ["main", "introduction", "title", "heading", "footnote", "xref"] := by
  have names : known.map SequenceKind.name = ["main", "introduction", "title", "heading", "footnote", "xref"] := rfl
  rw [known?, List.find?_eq_none, ← names, List.mem_map]
  simp only [beq_iff_eq, not_exists, not_and]

theorem read?_distinct {datum : Datum} {kind : SequenceKind} (read : read? datum = some kind) : kind.IsDistinct := by
  rintro name rfl
  unfold read? at read
  split at read
  next kind found =>
    cases read
    obtain ⟨written,_,found⟩ := Option.bind_eq_some_iff.mp found
    have member := List.mem_of_find?_eq_some found
    simp [known] at member
  next unknown =>
    cases datum with
    | text value =>
      cases read
      exact known?_eq_none_iff.mp unknown
    | _ => cases read

theorem read?_name {kind : SequenceKind} (distinct : kind.IsDistinct) : read? (.text kind.name) = some kind := by
  cases kind with
  | other name =>
    have unknown : known? name = none := known?_eq_none_iff.mpr (distinct name rfl)
    simp [read?, Datum.choice?, SequenceKind.name, unknown, Datum.string?]
  | main | introduction | title | heading | footnote | xref => decide

end SequenceKind

namespace Event
variable {event : Event} {datum full short : Datum}

theorem read?_eq_some_iff : read? datum = some event ↔ ∃ fields, datum.fields? .json fieldNames = some fields ∧
    Datum.required? fields "kind" EventKind.read? = some event.kind ∧
    Datum.defaulted? fields "subType" Datum.string? "" = some event.subType ∧
    Datum.defaulted? fields "payload" Datum.string? "" = some event.payload ∧
    Datum.defaulted? fields "sequence" SequenceKind.read? .main = some event.sequence := by
  simp only [read?, bind, Option.bind_eq_some_iff, pure]
  constructor
  · rintro ⟨fields,found,kind,first,subType,second,payload,third,sequence,fourth,same⟩
    cases same
    exact ⟨fields,found,first,second,third,fourth⟩
  · rintro ⟨fields,found,first,second,third,fourth⟩
    exact ⟨fields,found,_,first,_,second,_,third,_,fourth,rfl⟩

theorem read?_distinct (read : read? datum = some event) : event.sequence.IsDistinct := by
  obtain ⟨fields,_,_,_,_,sequence⟩ := read?_eq_some_iff.mp read
  unfold Datum.defaulted? at sequence
  split at sequence
  next => exact SequenceKind.read?_distinct sequence
  next =>
    rw [← Option.some.inj sequence]
    intro name same
    cases same

theorem read?_datum (distinct : event.sequence.IsDistinct) : read? event.datum = some event := by
  have fields : event.datum.fields? .json fieldNames = some _ := Datum.fields?_record rfl (by decide)
  refine read?_eq_some_iff.mpr ⟨_,fields,EventKind.read?_name event.kind,rfl,rfl,?_⟩
  exact SequenceKind.read?_name distinct

/-- Members that hold what is taken where they are missing. -/
def IsSpare (name : String) (datum : Datum) : Prop :=
  (name = "subType" ∨ name = "payload") ∧ datum.string? = some "" ∨
    name = "sequence" ∧ SequenceKind.read? datum = some .main

/-- The data of an event, and the same with some spare members left out. -/
inductive Omits : Datum → Datum → Prop
  | nothing {datum : Datum} : Omits datum datum
  | members {members fewer} (sheds : Datum.Sheds IsSpare (fun _ => Eq) members fewer) :
      Omits (.record members) (.record fewer)

theorem read?_of_omits (omits : Omits full short) (read : read? full = some event) : read? short = some event := by
  cases omits with
  | nothing => exact read
  | @members members fewer sheds =>
    obtain ⟨fields,found,kind,subType,payload,sequence⟩ := read?_eq_some_iff.mp read
    obtain ⟨all,rfl⟩ := Datum.fields?_record_iff.mp found
    have once {name : String} (known : name ∈ fieldNames) := Datum.once_of_areFields all known
    have fewerFields := sheds.areFields (fun _ _ _ same _ => same) all
    refine read?_eq_some_iff.mpr ⟨fewer,Datum.fields?_record_iff.mpr ⟨fewerFields,rfl⟩,?_,?_,?_,?_⟩
    · exact sheds.required? (once (by decide)) (by simp [IsSpare]) (fun _ _ same => same ▸ id) kind
    · exact sheds.defaulted? (once (by decide)) (by simp [IsSpare]) (fun _ _ same => same ▸ id) subType
    · exact sheds.defaulted? (once (by decide)) (by simp [IsSpare]) (fun _ _ same => same ▸ id) payload
    · exact sheds.defaulted? (once (by decide)) (by simp [IsSpare]) (fun _ _ same => same ▸ id) sequence

/-- Lists of events, each with some spare members left out. -/
inductive AllOmit : Datum → Datum → Prop
  | nothing {datum : Datum} : AllOmit datum datum
  | each {values fewer} (omits : List.Forall₂ Omits values fewer) : AllOmit (.list values) (.list fewer)

theorem list?_of_allOmit {events : List Event} (allOmit : AllOmit full short)
    (read : full.list? read? = some events) : short.list? read? = some events := by
  cases allOmit with
  | nothing => exact read
  | @each values fewer omits =>
    refine Datum.mapM_of_forall₂ ?_
    have data := Datum.mapM_eq_some read
    clear read
    induction omits generalizing events with
    | nil => exact data
    | cons first _ ih =>
      cases data with
      | cons head rest => exact .cons (read?_of_omits first head) (ih rest)

end Event

namespace Headers
variable {headers : Headers} {datum full short : Datum}

theorem read?_eq_some_iff : read? datum = some headers ↔ ∃ fields, datum.fields? .json fieldNames = some fields ∧
    Datum.required? fields "bookCode" Datum.string? = some headers.bookCode ∧
    Datum.defaulted? fields "h" (Datum.optional? Datum.string?) none = some headers.h ∧
    Datum.defaulted? fields "toc" (Datum.optional? Datum.string?) none = some headers.toc ∧
    Datum.defaulted? fields "toc2" (Datum.optional? Datum.string?) none = some headers.toc2 ∧
    Datum.defaulted? fields "toc3" (Datum.optional? Datum.string?) none = some headers.toc3 ∧
    Datum.defaulted? fields "periphTitle" (Datum.optional? Datum.string?) none = some headers.periphTitle := by
  simp only [read?, bind, Option.bind_eq_some_iff, pure]
  constructor
  · rintro ⟨fields,found,_,first,_,second,_,third,_,fourth,_,fifth,_,sixth,same⟩
    cases same
    exact ⟨fields,found,first,second,third,fourth,fifth,sixth⟩
  · rintro ⟨fields,found,first,second,third,fourth,fifth,sixth⟩
    exact ⟨fields,found,_,first,_,second,_,third,_,fourth,_,fifth,_,sixth,rfl⟩

theorem optional?_headerDatum (value : Option String) :
    Datum.optional? Datum.string? (headerDatum value) = some value := by
  cases value <;> rfl

theorem isPortable_headerDatum (value : Option String) (levels : Nat) :
    (headerDatum value).isPortable levels = true := by
  cases value <;> cases levels <;> rfl

theorem read?_datum (headers : Headers) : read? headers.datum = some headers := by
  have fields : headers.datum.fields? .json fieldNames = some _ := Datum.fields?_record rfl (by decide)
  exact read?_eq_some_iff.mpr ⟨_,fields,rfl,optional?_headerDatum headers.h,optional?_headerDatum headers.toc,
    optional?_headerDatum headers.toc2,optional?_headerDatum headers.toc3,optional?_headerDatum headers.periphTitle⟩

def IsSpare (name : String) (datum : Datum) : Prop :=
  name ∈ ["h", "toc", "toc2", "toc3", "periphTitle"] ∧ Datum.optional? Datum.string? datum = some none

/-- The data of headers, and the same with some spare members left out. -/
inductive Omits : Datum → Datum → Prop
  | nothing {datum : Datum} : Omits datum datum
  | members {members fewer} (sheds : Datum.Sheds IsSpare (fun _ => Eq) members fewer) :
      Omits (.record members) (.record fewer)

theorem read?_of_omits (omits : Omits full short) (read : read? full = some headers) :
    read? short = some headers := by
  cases omits with
  | nothing => exact read
  | @members members fewer sheds =>
    obtain ⟨fields,found,bookCode,h,toc,toc2,toc3,periphTitle⟩ := read?_eq_some_iff.mp read
    obtain ⟨all,rfl⟩ := Datum.fields?_record_iff.mp found
    have fewerFields := sheds.areFields (fun _ _ _ same _ => same) all
    have header {name : String} {value : Option String} (known : name ∈ fieldNames)
        (read : Datum.defaulted? fields name (Datum.optional? Datum.string?) none = some value) :
        Datum.defaulted? fewer name (Datum.optional? Datum.string?) none = some value :=
      sheds.defaulted? (Datum.once_of_areFields all known) (fun _ idle => idle.2) (fun _ _ same => same ▸ id) read
    refine read?_eq_some_iff.mpr ⟨fewer,Datum.fields?_record_iff.mpr ⟨fewerFields,rfl⟩,?_,header (by decide) h,
      header (by decide) toc,header (by decide) toc2,header (by decide) toc3,header (by decide) periphTitle⟩
    exact sheds.required? (Datum.once_of_areFields all (by decide)) (by simp [IsSpare]) (fun _ _ same => same ▸ id)
      bookCode

end Headers

namespace Document
variable {document : Document} {datum full short : Datum}

theorem read?_eq_some_iff : read? datum = some document ↔ ∃ fields, datum.fields? .json fieldNames = some fields ∧
    Datum.required? fields "headers" Headers.read? = some document.headers ∧
    Datum.defaulted? fields "profile" ProfileKind.read? .canonical = some document.profile ∧
    Datum.required? fields "events" (Datum.list? Event.read?) = some document.events ∧
    Datum.defaulted? fields "sequences" readSequences? ∅ = some document.sequences := by
  simp only [read?, bind, Option.bind_eq_some_iff, pure]
  constructor
  · rintro ⟨fields,found,_,first,_,second,_,third,_,fourth,same⟩
    cases same
    exact ⟨fields,found,first,second,third,fourth⟩
  · rintro ⟨fields,found,first,second,third,fourth⟩
    exact ⟨fields,found,_,first,_,second,_,third,_,fourth,rfl⟩

/-- No event is of an unknown sort under a known name. -/
def IsDistinct (document : Document) : Prop :=
  (∀ event ∈ document.events, event.sequence.IsDistinct) ∧
    ∀ entry ∈ document.sequences.entries, ∀ event ∈ entry.2, event.sequence.IsDistinct

theorem list?_distinct {events : List Event} (read : datum.list? Event.read? = some events) :
    ∀ event ∈ events, event.sequence.IsDistinct := by
  cases datum with
  | list values =>
    intro event member
    obtain ⟨value,_,read⟩ := Datum.exists_of_mem_mapM read member
    exact Event.read?_distinct read
  | _ => cases read

theorem readSequences?_distinct {sequences : Index String (List Event)}
    (read : readSequences? datum = some sequences) :
    ∀ entry ∈ sequences.entries, ∀ event ∈ entry.2, event.sequence.IsDistinct := by
  obtain ⟨entries,taken,rfl⟩ := Option.map_eq_some_iff.mp read
  intro entry member
  cases datum with
  | record members =>
    obtain ⟨_,_,taken⟩ := Datum.exists_of_mem_mapM taken (Index.mem_of_mem_ofList member)
    obtain ⟨_,events,rfl⟩ := Option.map_eq_some_iff.mp taken
    exact list?_distinct events
  | _ => cases taken

theorem read?_distinct (read : read? datum = some document) : document.IsDistinct := by
  obtain ⟨fields,_,_,_,events,sequences⟩ := read?_eq_some_iff.mp read
  obtain ⟨_,_,events⟩ := Option.bind_eq_some_iff.mp events
  refine ⟨list?_distinct events,?_⟩
  unfold Datum.defaulted? at sequences
  split at sequences
  next => exact readSequences?_distinct sequences
  next =>
    rw [← Option.some.inj sequences]
    intro entry member
    cases member

/-- The data of a document, whose sequences may stand in any order. -/
def IsWritten (document : Document) (datum : Datum) : Prop :=
  ∃ entries : List (String × List Event), entries.Perm document.sequences.entries ∧
    datum = .record [("headers", document.headers.datum), ("profile", .text document.profile.name),
      ("events", eventsDatum document.events),
      ("sequences", .record (entries.map fun entry => (entry.1, eventsDatum entry.2)))]

theorem isWritten_datum (document : Document) : document.IsWritten document.datum :=
  ⟨_,.refl _,rfl⟩

theorem list?_eventsDatum {events : List Event} (distinct : ∀ event ∈ events, event.sequence.IsDistinct) :
    (eventsDatum events).list? Event.read? = some events :=
  Datum.list?_map fun event member => Event.read?_datum (distinct event member)

theorem read?_of_isWritten (distinct : document.IsDistinct) (written : document.IsWritten datum) :
    read? datum = some document := by
  obtain ⟨entries,order,rfl⟩ := written
  obtain ⟨events,sequences⟩ := distinct
  have members : (Datum.record (entries.map fun entry => (entry.1, eventsDatum entry.2))).members?
      (Datum.list? Event.read?) = some entries :=
    Datum.members?_map eventsDatum fun entry member => list?_eventsDatum (sequences entry (order.mem_iff.mp member))
  refine read?_eq_some_iff.mpr ⟨_,Datum.fields?_record rfl (by decide),Headers.read?_datum document.headers,
    ProfileKind.read?_name document.profile,list?_eventsDatum events,?_⟩
  exact Option.map_eq_some_iff.mpr ⟨entries,members,Index.ofList_of_perm order⟩

def IsSpare (name : String) (datum : Datum) : Prop :=
  name = "profile" ∧ ProfileKind.read? datum = some .canonical ∨
    name = "sequences" ∧ readSequences? datum = some ∅

/-- Sequences of which each is given with some spare members of its events left out. -/
inductive SequencesOmit : Datum → Datum → Prop
  | nothing {datum : Datum} : SequencesOmit datum datum
  | each {members fewer : List (String × Datum)}
      (omits : List.Forall₂ (fun member other => member.1 = other.1 ∧ Event.AllOmit member.2 other.2) members fewer) :
      SequencesOmit (.record members) (.record fewer)

/-- What may be put for a member of a document. -/
def Keeps (name : String) (datum other : Datum) : Prop :=
  datum = other ∨ name = "headers" ∧ Headers.Omits datum other ∨ name = "events" ∧ Event.AllOmit datum other ∨
    name = "sequences" ∧ SequencesOmit datum other

/-- The data of a document, and the same with some spare members left out, of any of its objects. -/
inductive Omits : Datum → Datum → Prop
  | nothing {datum : Datum} : Omits datum datum
  | members {members fewer} (sheds : Datum.Sheds IsSpare Keeps members fewer) :
      Omits (.record members) (.record fewer)

theorem readSequences?_of_omit {sequences : Index String (List Event)} (less : SequencesOmit full short)
    (read : readSequences? full = some sequences) : readSequences? short = some sequences := by
  cases less with
  | nothing => exact read
  | @each members fewer omits =>
    obtain ⟨entries,taken,rfl⟩ := Option.map_eq_some_iff.mp read
    refine Option.map_eq_some_iff.mpr ⟨entries,Datum.mapM_of_forall₂ ?_,rfl⟩
    have data := Datum.mapM_eq_some taken
    clear taken read
    induction omits generalizing entries with
    | nil => exact data
    | cons first _ ih =>
      cases data with
      | cons head rest =>
        refine .cons ?_ (ih _ rest)
        obtain ⟨events,taken,same⟩ := Option.map_eq_some_iff.mp head
        rw [Event.list?_of_allOmit first.2 taken, ← first.1]
        exact congrArg some same

theorem read?_of_omits (omits : Omits full short) (read : read? full = some document) :
    read? short = some document := by
  cases omits with
  | nothing => exact read
  | @members members fewer sheds =>
    obtain ⟨fields,found,headers,profile,events,sequences⟩ := read?_eq_some_iff.mp read
    obtain ⟨all,rfl⟩ := Datum.fields?_record_iff.mp found
    have once {name : String} (known : name ∈ fieldNames) := Datum.once_of_areFields all known
    have fewerFields : Datum.areFields fieldNames fewer = true := by
      refine sheds.areFields (fun name datum other keeps unknown => ?_) all
      rcases keeps with same | ⟨rfl,_⟩ | ⟨rfl,_⟩ | ⟨rfl,_⟩
      · exact same
      all_goals exact absurd (by decide) unknown
    refine read?_eq_some_iff.mpr ⟨fewer,Datum.fields?_record_iff.mpr ⟨fewerFields,rfl⟩,?_,?_,?_,?_⟩
    · refine sheds.required? (once (by decide)) (by simp [IsSpare]) (fun _ _ keeps read => ?_) headers
      rcases keeps with rfl | ⟨_,omits⟩ | ⟨other,_⟩ | ⟨other,_⟩
      · exact read
      · exact Headers.read?_of_omits omits read
      all_goals exact absurd other (by decide)
    · refine sheds.defaulted? (once (by decide)) (by simp [IsSpare]) (fun _ _ keeps read => ?_) profile
      rcases keeps with rfl | ⟨other,_⟩ | ⟨other,_⟩ | ⟨other,_⟩
      · exact read
      all_goals exact absurd other (by decide)
    · refine sheds.required? (once (by decide)) (by simp [IsSpare]) (fun _ _ keeps read => ?_) events
      rcases keeps with rfl | ⟨other,_⟩ | ⟨_,omits⟩ | ⟨other,_⟩
      · exact read
      · exact absurd other (by decide)
      · exact Event.list?_of_allOmit omits read
      · exact absurd other (by decide)
    · refine sheds.defaulted? (once (by decide)) (by simp [IsSpare]) (fun _ _ keeps read => ?_) sequences
      rcases keeps with rfl | ⟨other,_⟩ | ⟨other,_⟩ | ⟨_,omits⟩
      · exact read
      · exact absurd other (by decide)
      · exact absurd other (by decide)
      · exact readSequences?_of_omit omits read

theorem isPortable_eventsDatum {levels : Nat} (events : List Event) :
    (eventsDatum events).isPortable (levels + 2) = true :=
  Datum.arePortable_map (levels + 1) Event.datum (fun _ => rfl) events

theorem IsWritten.isPortable (written : document.IsWritten datum) : datum.isPortable 4 = true := by
  obtain ⟨entries,_,rfl⟩ := written
  have headers : document.headers.datum.isPortable 3 = true := by
    simp [Headers.datum, Datum.isPortable, Datum.areMembersPortable, Headers.isPortable_headerDatum]
  have sequences := Datum.areMembersPortable_map 2 (fun entry => entry.1) (fun entry => eventsDatum entry.2)
    (fun entry => isPortable_eventsDatum entry.2) entries
  have events : (eventsDatum document.events).isPortable 3 = true := isPortable_eventsDatum document.events
  simp [Datum.isPortable, Datum.areMembersPortable, headers, events, sequences]

/-- Just the documents that can have been read are read back. -/
theorem read?_datum_iff : read? document.datum = some document ↔ document.IsDistinct :=
  ⟨read?_distinct,fun distinct => read?_of_isWritten distinct document.isWritten_datum⟩

end Document

namespace Settings
variable {settings : Settings} {datum : Datum}

theorem read?_eq_some_iff : read? datum = some settings ↔ ∃ fields, datum.fields? .json fieldNames = some fields ∧
    Datum.defaulted? fields "glossaryTerms" Datum.terms? ∅ = some settings.terms ∧
    Datum.defaulted? fields "glossaryNToAside" readAsides? ∅ = some settings.asides ∧
    Datum.defaulted? fields "frenchSpacing" (FrenchSpacing.read? .json) .off = some settings.layout.frenchSpacing ∧
    Datum.defaulted? fields "textDirection" (Direction.read? .json) .ltr = some settings.layout.direction ∧
    Datum.defaulted? fields "reversedDocumentIds" Datum.names? ∅ = some settings.layout.reversedBooks ∧
    Datum.defaulted? fields "customCss" Datum.bool? false = some settings.layout.customCss := by
  simp only [read?, bind, Option.bind_eq_some_iff, pure]
  constructor
  · rintro ⟨fields,found,_,first,_,second,_,third,_,fourth,_,fifth,_,sixth,same⟩
    cases same
    exact ⟨fields,found,first,second,third,fourth,fifth,sixth⟩
  · rintro ⟨fields,found,first,second,third,fourth,fifth,sixth⟩
    exact ⟨fields,found,_,first,_,second,_,third,_,fourth,_,fifth,_,sixth,rfl⟩

/-- The data of settings, whose terms, asides and books may stand in any order. -/
def IsWritten (settings : Settings) (datum : Datum) : Prop :=
  ∃ (terms : List (String × UInt32)) (asides : List (UInt32 × String)) (books : List String),
    terms.Perm settings.terms.entries ∧ asides.Perm settings.asides.entries ∧
    books.Perm settings.layout.reversedBooks.keys ∧
    datum = .record [
      ("glossaryTerms", .record (terms.map fun entry => (entry.1, .natural entry.2.toNat))),
      ("glossaryNToAside", .record (asides.map fun entry => (toString entry.1.toNat, .text entry.2))),
      ("frenchSpacing", .text settings.layout.frenchSpacing.name),
      ("textDirection", .text settings.layout.direction.name),
      ("reversedDocumentIds", .list (books.map .text)), ("customCss", .truth settings.layout.customCss)]

theorem isWritten_datum (settings : Settings) : settings.IsWritten settings.datum :=
  ⟨_,_,_,.refl _,.refl _,.refl _,rfl⟩

theorem terms?_of_perm {index : Index String UInt32} {entries : List (String × UInt32)}
    (order : entries.Perm index.entries) :
    Datum.terms? (.record (entries.map fun entry => (entry.1, .natural entry.2.toNat))) = some index := by
  have members : (Datum.record (entries.map fun entry => (entry.1, .natural entry.2.toNat))).members? Datum.word? =
      some entries :=
    Datum.members?_map (fun entry : UInt32 => .natural entry.toNat) fun entry _ => Text.word?_toNat entry.2
  exact Option.map_eq_some_iff.mpr ⟨entries,members,Index.ofList_of_perm order⟩

/-- The entry numbers are read back from their numerals. -/
theorem readAsides?_of_perm {index : Index UInt32 String} {entries : List (UInt32 × String)}
    (order : entries.Perm index.entries) :
    readAsides? (.record (entries.map fun entry => (toString entry.1.toNat, .text entry.2))) = some index := by
  let numbered := entries.map fun entry => (toString entry.1.toNat, entry.2)
  have members : (Datum.record (numbered.map fun member => (member.1, .text member.2))).members? Datum.string? =
      some numbered :=
    Datum.members?_map .text fun _ _ => rfl
  have read : numbered.mapM (fun member => (Text.strictWord? member.1).map fun entry => (entry, member.2)) =
      some entries :=
    Datum.mapM_map fun entry _ => by rw [Text.strictWord?_toString, Option.map_some]
  rw [List.map_map] at members
  refine Option.bind_eq_some_iff.mpr ⟨numbered,members,?_⟩
  exact Option.bind_eq_some_iff.mpr ⟨entries,read,congrArg some (Index.ofList_of_perm order)⟩

theorem names?_of_perm {index : Index String Unit} {names : List String} (order : names.Perm index.keys) :
    Datum.names? (.list (names.map .text)) = some index := by
  have listed : (Datum.list (names.map .text)).list? Datum.string? = some names := Datum.list?_map fun _ _ => rfl
  have entries : index.keys.map (fun name => (name, ())) = index.entries := by
    rw [Index.keys, List.map_map]
    exact List.map_id _
  have units : (names.map fun name => (name, ())).Perm index.entries := entries ▸ order.map _
  exact Option.map_eq_some_iff.mpr ⟨names,listed,Index.ofList_of_perm units⟩

theorem read?_of_isWritten (written : settings.IsWritten datum) : read? datum = some settings := by
  obtain ⟨terms,asides,books,termOrder,asideOrder,bookOrder,rfl⟩ := written
  exact read?_eq_some_iff.mpr ⟨_,Datum.fields?_record rfl (by decide),terms?_of_perm termOrder,
    readAsides?_of_perm asideOrder,FrenchSpacing.read?_name .json settings.layout.frenchSpacing,
    Direction.read?_name .json settings.layout.direction,names?_of_perm bookOrder,rfl⟩

theorem IsWritten.isPortable (written : settings.IsWritten datum) : datum.isPortable 4 = true := by
  obtain ⟨terms,asides,books,_,_,_,rfl⟩ := written
  have word (n : UInt32) : n.toNat < UInt64.size := Nat.lt_trans n.toNat_lt_size (by decide)
  have terms := Datum.areMembersPortable_map 2 (fun entry => entry.1) (fun entry => .natural entry.2.toNat)
    (fun entry => decide_eq_true (word entry.2)) terms
  have asides := Datum.areMembersPortable_map 2 (fun entry => toString entry.1.toNat) (fun entry => .text entry.2)
    (fun _ => rfl) asides
  have books := Datum.arePortable_map 2 .text (fun _ => rfl) books
  simp only [Datum.isPortable, Datum.areMembersPortable, terms, asides, books, Bool.and_self]

end Settings

namespace Document

/-- Documents and settings are read back from the text that they are written to, by any writer and reader that undo
each other on data of so few levels, as those of JSON text do; and members that hold what is taken where they are
missing may be left out of a document. -/
theorem read_back :
    (∀ datum document, Document.read? datum = some document → document.IsDistinct) ∧
    (∀ (write : Datum → String) (read? : String → Option Datum),
      (∀ datum, datum.isPortable 4 = true → read? (write datum) = some datum) →
      (∀ document datum, document.IsDistinct → document.IsWritten datum →
        (read? (write datum)).bind Document.read? = some document) ∧
      ∀ settings datum, settings.IsWritten datum → (read? (write datum)).bind Settings.read? = some settings) ∧
    (∀ datum, datum.isKept = true → Json.read? (Json.write datum) = some datum) ∧
    (∀ full short event, Event.Omits full short → Event.read? full = some event →
      Event.read? short = some event) ∧
    (∀ full short headers, Headers.Omits full short → Headers.read? full = some headers →
      Headers.read? short = some headers) ∧
    ∀ full short document, Document.Omits full short → Document.read? full = some document →
      Document.read? short = some document := by
  refine ⟨fun _ _ => Document.read?_distinct,fun write read? inverse => ⟨?_,?_⟩,fun _ => Json.read?_write,
    fun _ _ _ => Event.read?_of_omits,fun _ _ _ => Headers.read?_of_omits,fun _ _ _ => Document.read?_of_omits⟩
  · intro document datum distinct written
    rw [inverse datum written.isPortable, Option.bind_some]
    exact Document.read?_of_isWritten distinct written
  · intro settings datum written
    rw [inverse datum written.isPortable, Option.bind_some]
    exact Settings.read?_of_isWritten written

/-- A line of a sort that is not known, whose type and text are empty. -/
def bareLine : Event := ⟨.token,"","",.other "margin"⟩

def bareLetter : Document where
  headers := {bookCode := "PHM", toc := some "Philemon"}
  events := [.documentStart, bareLine]
  sequences := .ofList [("note2", []), ("note10", [bareLine])]

def briefLine : Datum := .record [("kind", .text "token"), ("sequence", .text "margin")]

def briefHeaders : Datum := .record [("bookCode", .text "PHM"), ("toc", .text "Philemon")]

/-- The same with nothing in it that holds a default. -/
def briefLetter : Datum :=
  .record [("headers", briefHeaders), ("events", .list [.record [("kind", .text "documentStart")], briefLine]),
    ("sequences", .record [("note10", .list [briefLine]), ("note2", .list [])])]

def twoAsides : Settings where
  asides := .ofList [(10, "ten"), (9, "nine")]

theorem omits_briefLine : Event.Omits bareLine.datum briefLine :=
  .members (.keep rfl (.shed (.inl ⟨.inl rfl,rfl⟩) (.shed (.inl ⟨.inr rfl,rfl⟩) (.keep rfl .nil))))

theorem omits_briefHeaders : Headers.Omits bareLetter.headers.datum briefHeaders := by
  have idle {name : String} (known : name ∈ ["h", "toc", "toc2", "toc3", "periphTitle"]) :
      Headers.IsSpare name .null := ⟨known,rfl⟩
  exact .members (.keep rfl (.shed (idle (by decide)) (.keep rfl (.shed (idle (by decide))
    (.shed (idle (by decide)) (.shed (idle (by decide)) .nil))))))

theorem omits_briefLetter : Omits bareLetter.datum briefLetter := by
  have start : Event.Omits Event.documentStart.datum (.record [("kind", .text "documentStart")]) :=
    .members (.keep rfl (.shed (.inl ⟨.inl rfl,rfl⟩) (.shed (.inl ⟨.inr rfl,rfl⟩)
      (.shed (.inr ⟨rfl,by decide⟩) .nil))))
  have noted : SequencesOmit (.record [("note10", eventsDatum [bareLine]), ("note2", eventsDatum [])])
      (.record [("note10", .list [briefLine]), ("note2", .list [])]) :=
    .each (.cons ⟨rfl,.each (.cons omits_briefLine .nil)⟩ (.cons ⟨rfl,.nothing⟩ .nil))
  exact .members (.keep (.inr (.inl ⟨rfl,omits_briefHeaders⟩)) (.shed (.inl ⟨rfl,by decide⟩)
    (.keep (.inr (.inr (.inl ⟨rfl,.each (.cons start (.cons omits_briefLine .nil))⟩)))
      (.keep (.inr (.inr (.inr ⟨rfl,noted⟩))) .nil))))

theorem read_back_bareLetter : Document.read? bareLetter.datum = some bareLetter ∧ bareLetter.IsDistinct ∧
    (Json.read? (Json.write bareLetter.datum)).bind Document.read? = some bareLetter ∧
    (Json.read? (Json.write twoAsides.datum)).bind Settings.read? = some twoAsides ∧
    Event.read? briefLine = some bareLine ∧ Headers.read? briefHeaders = some bareLetter.headers ∧
    Document.read? briefLetter = some bareLetter := by
  have read : Document.read? bareLetter.datum = some bareLetter := by decide +kernel
  have line : Event.read? bareLine.datum = some bareLine := by decide
  obtain ⟨distinct,formats,kept,events,headers,omitted⟩ := read_back
  obtain ⟨documents,settings⟩ := formats Json.write Json.read? fun datum portable =>
    kept datum (Datum.isKept_of_isPortable portable)
  exact ⟨read,distinct _ _ read,documents _ _ (distinct _ _ read) bareLetter.isWritten_datum,
    settings _ _ twoAsides.isWritten_datum,events _ _ _ omits_briefLine line,
    headers _ _ _ omits_briefHeaders (Headers.read?_datum _),omitted _ _ _ omits_briefLetter read⟩

end Document
end Scriptorium
