import Scriptorium.Proofs.KeptPages
import Scriptorium.Proofs.SharedEdition

/-! Editions of many documents. Each document has the result that it has alone, whatever comes of the
others, and the edition holds what the documents leave when they are rendered alone, one after the
other; where no book comes twice, the pages of all rendered documents are in it. -/
namespace Scriptorium

/-- The key of a page tells the book, whatever characters its code has. -/
theorem Headers.bookCode_of_key {one other : Headers} (same : one.key = other.key) :
    one.bookCode = other.bookCode := by
  have read : ("OEBPS/XHTML/" ++ one.bookCode ++ "/" ++ one.bookCode ++ ".xhtml").toList =
      ("OEBPS/XHTML/" ++ other.bookCode ++ "/" ++ other.bookCode ++ ".xhtml").toList :=
    congrArg String.toList same
  simp only [String.toList_append, List.append_assoc] at read
  have behind := List.append_cancel_left read
  -- the code stands in the key twice, so that the length of the key gives the length of the code
  have long := congrArg List.length behind
  simp only [List.length_append] at long
  have code := (List.append_inj behind (by omega)).1
  exact String.toList_inj.mp code

def Rendition.after (before : Edition) (rendition : Rendition) : Rendition :=
  {rendition with edition := before.extend rendition.edition}

namespace Document

theorem renderAs_after (document : Document) (profile : Profile) (settings : Settings)
    (before edition : Edition) :
    document.renderAs profile settings (before.extend edition) =
      (document.renderAs profile settings edition).after before := by
  have apart : Session.performAll (document.commission profile settings) [] ⟨{},before.extend edition,none⟩
      document.events = (Session.performAll (document.commission profile settings) [] ⟨{},edition,none⟩
        document.events).after before :=
    Session.performAll_after [] ⟨{},edition,none⟩ document.events
  simp only [renderAs, apart, Outcome.after]
  split <;> rfl

theorem renderReported_after (document : Document) (settings : Settings) (before edition : Edition) :
    document.renderReported settings (before.extend edition) =
      (document.renderReported settings edition).after before := by
  have apart : document.render settings (before.extend edition) =
      (document.render settings edition).after before :=
    renderAs_after document document.profile.profile settings before edition
  simp only [renderReported, apart, Rendition.after]
  split <;> rfl

/-- Of a failure only the journal is told more than rendering alone tells. -/
theorem renderReported_solo (document : Document) (settings : Settings) :
    let reported := document.renderReported settings {}
    let solo := document.render settings {}
    reported.result = solo.result ∧ reported.edition.titles = solo.edition.titles ∧
      reported.edition.log = solo.edition.log ∧ reported.edition.pages = solo.edition.pages := by
  simp only [renderReported]
  split <;> exact ⟨rfl,rfl,rfl,rfl⟩

theorem renderAll_eq (settings : Settings) (documents : List Document) (edition : Edition) :
    renderAll settings documents edition =
      (documents.map fun document => (document.headers.bookCode, (document.render settings {}).result),
        documents.foldl (fun edition document =>
          edition.extend (document.renderReported settings {}).edition) edition) := by
  induction documents generalizing edition with
  | nil => rfl
  | cons document rest ih =>
    have first := renderReported_after document settings edition {}
    rw [Edition.extend_empty] at first
    rw [renderAll, first, ih]
    simp only [Rendition.after, List.map_cons, List.foldl_cons,
      (renderReported_solo document settings).1]

theorem render_ofBook (document : Document) (settings : Settings) :
    (document.render settings {}).edition.OfBook document.headers := by
  have own : (Session.performAll (document.commission document.profile.profile settings) [] ⟨{},{},none⟩
      document.events).edition.OfBook (document.commission document.profile.profile settings).headers :=
    Session.performAll_ofBook (.empty _) [] document.events
  unfold render renderAs
  simp only
  split <;> exact own

theorem render_keeps {document : Document} {settings : Settings} {page : Page}
    (rendered : (document.render settings {}).result = .ok page) :
    page.key = document.headers.key ∧
      (document.render settings {}).edition.pages.find? document.headers.key = some page.markup := by
  have last := composed_last rendered
  have pages := renderAs_pages document document.profile.profile settings {}
  have keyed : ∀ page ∈ document.composed document.profile.profile settings {},
      page.key = document.headers.key := Session.composed_key _ _
  rw [last] at pages
  refine ⟨keyed page (List.mem_of_getLast? last),?_⟩
  rw [render, pages]
  exact Index.find?_insert_self _ _ _

end Document

theorem Edition.foldl_extend_log {β : Type} (contents : β → Edition) (items : List β) (edition : Edition) :
    (items.foldl (fun edition item => edition.extend (contents item)) edition).log.toList =
      edition.log.toList ++ items.flatMap fun item => (contents item).log.toList := by
  induction items generalizing edition with
  | nil => simp
  | cons item rest ih =>
    rw [List.foldl_cons, ih, extend, Gathering.toList_append, List.flatMap_cons, List.append_assoc]

/-- Merging what does not have the key leaves the entry under it. -/
theorem Index.find?_foldl_merge {α β : Type} (contents : β → Index String α) (key : String)
    (items : List β) (index : Index String α)
    (absent : ∀ item ∈ items, (contents item).find? key = none) :
    (items.foldl (fun index item => index.merge (contents item)) index).find? key = index.find? key := by
  induction items generalizing index with
  | nil => rfl
  | cons item rest ih =>
    rw [List.foldl_cons, ih _ fun other member => absent other (List.mem_cons_of_mem _ member),
      Index.find?_merge, absent item List.mem_cons_self, Option.none_or]

namespace Document

/-- Documents rendered into one edition do not influence each other. -/
theorem renderAll_solo (settings : Settings) (documents : List Document) :
    let whole := renderAll settings documents {}
    let solo (document : Document) := document.render settings {}
    whole.1 = documents.map (fun document => (document.headers.bookCode, (solo document).result)) ∧
      whole.2.log.toList = documents.flatMap (fun document => (solo document).edition.log.toList) ∧
      whole.2.titles =
        documents.foldl (fun titles document => titles.merge (solo document).edition.titles) ∅ ∧
      whole.2.pages =
        documents.foldl (fun pages document => pages.merge (solo document).edition.pages) ∅ ∧
      ((documents.map fun document => document.headers.bookCode).Nodup →
        (documents.map fun document => document.headers.key).Nodup ∧
        ∀ document ∈ documents, ∀ page, (solo document).result = .ok page →
          page.key = document.headers.key ∧ whole.2.pages.find? page.key = some page.markup) := by
  intro whole solo
  have all : whole = _ := renderAll_eq settings documents {}
  have reported (document : Document) := renderReported_solo document settings
  have pages : whole.2.pages =
      documents.foldl (fun pages document => pages.merge (solo document).edition.pages) ∅ := by
    rw [all]
    refine (List.foldl_hom Edition.pages fun edition document => ?_).symm
    exact congrArg edition.pages.merge (reported document).2.2.2.symm
  refine ⟨congrArg Prod.fst all,?_,?_,pages,?_⟩
  · rw [all, Edition.foldl_extend_log]
    exact List.flatMap_congr fun document _ => congrArg Gathering.toList (reported document).2.2.1
  · rw [all]
    refine (List.foldl_hom Edition.titles fun edition document => ?_).symm
    exact congrArg edition.titles.merge (reported document).2.1.symm
  intro distinct
  refine ⟨?_,fun document member page rendered => ?_⟩
  · rw [List.Nodup, List.pairwise_map] at distinct ⊢
    exact distinct.imp fun different same => different (Headers.bookCode_of_key same)
  · obtain ⟨keyed,kept⟩ := render_keeps rendered
    obtain ⟨front,back,split⟩ := List.append_of_mem member
    refine ⟨keyed,?_⟩
    rw [pages, split, List.foldl_append, List.foldl_cons, keyed, Index.find?_foldl_merge,
      Index.find?_merge, kept, Option.some_or]
    -- the documents behind it are of other books, and keep nothing under its key
    intro other behind
    refine (render_ofBook other settings).pages _ fun same => ?_
    rw [split, List.map_append, List.map_cons] at distinct
    have apart := (List.nodup_cons.mp (List.nodup_append.mp distinct).2.1).1
    exact apart (List.mem_map.mpr ⟨other,behind,(Headers.bookCode_of_key same).symm⟩)

/-- A book without a word. -/
def blank : Document where
  headers := ⟨"LUK",none,none,none,none,none⟩
  events := [.documentStart, .sequenceEnd .main]

/-- The blank book behind one that fails. -/
theorem renderAll_blank :
    ∃ page, (blank.render {} {}).result = .ok page ∧
      (renderAll {} [overrun, blank] {}).2.pages.find? page.key = some page.markup := by
  have unfolded : blank.acts .canonical = blank.events.map (.take []) :=
    Graft.unfold_of_ungrafted [] (by decide)
  have fine : (blank.outcome .canonical {} {}).failure = none := by
    rw [outcome, unfolded]
    decide +kernel
  have kept : (blank.outcome .canonical {} {}).session.output.isSome := by
    rw [outcome, unfolded]
    decide +kernel
  obtain ⟨page,output⟩ := Option.isSome_iff_exists.mp kept
  have rendered : (blank.render {} {}).result = .ok page := result_eq_ok_iff.mpr ⟨fine,output⟩
  obtain ⟨_,_,_,_,distinct⟩ := renderAll_solo {} [overrun, blank]
  obtain ⟨_,pages⟩ := distinct (by decide)
  exact ⟨page,rendered,(pages blank (by simp) page rendered).2⟩

end Document
end Scriptorium
