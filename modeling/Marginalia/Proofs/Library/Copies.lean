import Marginalia.Proofs.Frontmatter
import Marginalia.Proofs.Library.Install

/-
What the copies of the built-in templates read as.  A copy is a new template with the id of the
old one; it has lost the blanks that the content starts with, and where the description was
blank it has got the one for want of another.
-/
namespace Marginalia

open Use

namespace TemplateDefinition

variable {d : TemplateDefinition} {id t : Text} {builtIn : Bool}

/-! ## Templates that have been read -/

/-- What holds of every template that has been read from a file. -/
structure IsRead (d : TemplateDefinition) : Prop where
  id_ne_nil : d.id ≠ []
  name_eq : d.name = displayName d.id
  description : d.description.Tight
  content : '\r' ∉ d.content

theorem tight_of_describe {name description : Text} {entries : List (Value × Value)}
    (h : describe name entries = .ok description) : description.Tight := by
  unfold describe at h
  dsimp only at h
  split at h
  · obtain ⟨t, _, h⟩ := exists_of_bind_eq_ok h
    cases h
    exact Text.tight_strip t
  · cases h
    exact Text.tight_strip _

theorem isRead_ofText (hid : id ≠ []) (ht : '\r' ∉ t) (h : (ofText id builtIn t).1 = .ok d) :
    d.IsRead := by
  unfold ofText at h
  split at h
  · cases h
  · rename_i f hsplit
    dsimp only at h
    cases hdescription : describe (displayName id) f.entries with
    | error e =>
      rw [hdescription] at h
      cases h
    | ok description =>
      rw [hdescription] at h
      cases h
      exact ⟨hid, rfl, tight_of_describe hdescription,
        fun hmem => ht ((Frontmatter.suffix_of_split hsplit).subset hmem)⟩

theorem stemOf_fileName_ne_nil (id : Text) : Path.stemOf (fileName id) ≠ [] := by
  rw [stemOf_fileName]
  split
  · decide
  · assumption

theorem isRead_ofFile {files : FileTree} {p : Path} (hstem : p.stem ≠ [])
    (h : (ofFile files p builtIn).1 = .ok d) : d.IsRead := by
  unfold ofFile at h
  cases htext : textOf files p with
  | error e =>
    rw [htext] at h
    cases h
  | ok t =>
    rw [htext] at h
    refine isRead_ofText hstem ?_ h
    unfold textOf at htext
    split at htext
    · cases htext
    · split at htext
      · cases htext
      · cases htext
        exact Text.not_mem_unifyLineEnds _

/-! ## Reading a copy -/

/-- The copy of a template, as it is read. -/
def copied (d : TemplateDefinition) : TemplateDefinition where
  id := d.id
  name := d.name
  description := if d.description = [] then plainDescription d.name else d.description
  content := Text.stripLeft d.content
  builtIn := false

end TemplateDefinition

namespace Library

open TemplateDefinition

variable {l : Library} {s t : Shelf} {d : TemplateDefinition} {ds : List TemplateDefinition}
  {directory : Path} {place : FileTree.Names} {files : FileTree}

theorem isRead_of_comesFrom (hnames : files.HasNames) (h : l.ComesFrom files d) : d.IsRead := by
  cases h with
  | shipped f hf hd =>
    have hshipped : ∀ f ∈ Shipped.files, Path.stemOf f.1 ≠ [] ∧ '\r' ∉ f.2 := by decide +kernel
    exact isRead_ofText (hshipped f hf).1 (hshipped f hf).2 hd
  | directory p place name hname hd =>
    obtain ⟨b, rfl, _, hisName⟩ := isName_of_mem_namesAt hnames hname
    refine isRead_ofFile ?_ hd
    rw [Path.stem_child hisName]
    exact stemOf_fileName_ne_nil b

/-- The entry that states the description of a copy. -/
def describing (d : TemplateDefinition) : Text :=
  Yaml.Writer.entry "description".toList d.description

/-- The description in some settings, if it is a text. -/
def statedIn (settings : Text) : Option Text :=
  match Yaml.readMapping settings with
  | .ok (some entries) =>
    match Value.lookup "description".toList entries with
    | some (.text t) => some t
    | _ => none
  | _ => none

/-- The description that was written is read. -/
def IsReadBack (d : TemplateDefinition) : Prop := statedIn (describing d) = some d.description

instance (d : TemplateDefinition) : Decidable (IsReadBack d) :=
  inferInstanceAs (Decidable (_ = _))

theorem IsReadBack.exists_entries (h : IsReadBack d) : ∃ entries,
    Yaml.readMapping (describing d) = .ok (some entries) ∧
      Value.lookup "description".toList entries = some (.text d.description) := by
  unfold IsReadBack statedIn at h
  split at h
  · rename_i entries hread
    split at h
    · rename_i hlookup
      cases h
      exact ⟨entries, hread, hlookup⟩
    · cases h
  · cases h

theorem fileText_eq (hd : d.IsRead) :
    fileText d = Frontmatter.fenced (describing d) ('\n' :: d.content) := by
  have htight : (describing d).Tight :=
    Yaml.Writer.tight_entry (Text.tight_iff.2 (by decide)) (by decide) hd.description
  unfold fileText Frontmatter.fenced
  dsimp only
  rw [show Text.strip (Yaml.Writer.entry "description".toList d.description) = describing d from
    htight.strip_eq]
  simp

theorem tight_plainDescription (name : Text) : (plainDescription name).Tight := by
  refine ⟨?_, ?_⟩
  · rintro c ⟨⟩
    decide
  · intro c hc
    rw [plainDescription, List.getLast?_append] at hc
    cases hc
    decide

theorem describe_back (hd : d.IsRead) {entries : List (Value × Value)}
    (hlookup : Value.lookup "description".toList entries = some (.text d.description)) :
    describe d.name entries = .ok d.copied.description := by
  unfold describe copied
  rw [hlookup, Option.getD_some]
  dsimp only
  by_cases hempty : d.description = []
  · have htruthy : (Value.text d.description).isTruthy ≠ true := by
      rw [hempty]
      decide
    rw [if_neg htruthy, if_pos hempty]
    exact congrArg Except.ok (tight_plainDescription d.name).strip_eq
  · have htruthy : (Value.text d.description).isTruthy = true := by
      simpa [Value.isTruthy] using hempty
    rw [if_pos htruthy, if_neg hempty]
    exact congrArg Except.ok hd.description.strip_eq

/-- What a copy is read as. -/
theorem ofText_fileText (hd : d.IsRead) (hback : IsReadBack d) :
    (ofText d.id false (fileText d)).1 = .ok d.copied := by
  obtain ⟨entries, hread, hlookup⟩ := hback.exists_entries
  have hflat : Text.IsFlat "description".toList := by decide
  have hsplit : Frontmatter.split (Frontmatter.fenced (describing d) ('\n' :: d.content)) = _ :=
    Frontmatter.split_fenced (Yaml.Writer.goesOn_entry hflat d.description) hread _
  rw [fileText_eq hd, ofText, hsplit, ← hd.name_eq]
  dsimp only
  rw [describe_back hd hlookup]
  rfl

theorem not_mem_fileText (hd : d.IsRead) : '\r' ∉ fileText d := by
  have hentry : '\r' ∉ describing d :=
    (Yaml.Writer.goesOn_entry (by decide) d.description).not_mem
  rw [fileText_eq hd, Frontmatter.fenced]
  simp [hentry, hd.content]

theorem stem_target (hslash : '/' ∉ d.id) (hne : d.id ≠ []) :
    (target directory d).stem = d.id := by
  rw [target, Path.stem_child (isName_fileName hslash), stemOf_fileName, if_neg hne]

theorem ofFile_copy (hplace : Stands files directory place) (hslash : '/' ∉ d.id)
    (hroom : HasRoom directory d) (hd : d.IsRead) (hback : IsReadBack d)
    (hentry : files.entry? (slot place d) = some (.file (Text.encode (fileText d)))) :
    (ofFile files (target directory d) false).1 = .ok d.copied := by
  have hfind : files.find (target directory d) = .ok (.file (Text.encode (fileText d))) :=
    FileTree.find_eq_ok.2 ⟨_, locate_target hplace hslash hroom, hentry⟩
  have hread : files.read (target directory d) = .ok (Text.encode (fileText d)) := by
    rw [FileTree.read, bind_of_eq_ok hfind]
  have htext : textOf files (target directory d) = .ok (fileText d) := by
    rw [textOf, hread]
    dsimp only
    rw [Text.decode?_encode]
    exact congrArg Except.ok (Text.unifyLineEnds_of_not_mem (not_mem_fileText hd))
  rw [ofFile, htext]
  dsimp only
  rw [stem_target hslash hd.id_ne_nil, ofText_fileText hd hback]

/-! ## The list after installing -/

theorem hasNames_withCopies (hnames : files.HasNames) (hplace : ∀ x ∈ place, '/' ∉ x)
    (hds : ∀ d ∈ ds, '/' ∉ d.id) : (withCopies files place ds).HasNames := by
  have hmissing : ∀ d ∈ missing files place ds, '/' ∉ d.id := fun d hd =>
    hds d (mem_missing.1 hd).1
  unfold withCopies
  generalize missing files place ds = ms at hmissing
  induction ms generalizing files with
  | nil => exact hnames
  | cons d rest ih =>
    obtain ⟨hd, hrest⟩ := List.forall_mem_cons.1 hmissing
    have hslot : ∀ x ∈ slot place d, '/' ∉ x :=
      List.forall_mem_append.2 ⟨hplace, List.forall_mem_singleton.2 (isName_fileName hd).no_slash⟩
    exact ih (hnames.put hslot _) hrest

/-- Where there was no template in the directory, all that it holds then are copies. -/
theorem mem_namesAt_withCopies (hempty : namesAt files place = []) {name : Text}
    (h : name ∈ namesAt (withCopies files place ds) place) : ∃ d ∈ ds, name = fileName d.id := by
  obtain ⟨hb, e, he⟩ := mem_namesAt.1 h
  by_cases hslot : ∃ d ∈ missing files place ds, place ++ [name] = slot place d
  · obtain ⟨d, hd, heq⟩ := hslot
    exact ⟨d, (mem_missing.1 hd).1, List.singleton_inj.1 (List.append_cancel_left heq)⟩
  · rw [entry?_withCopies_of_ne fun d hd heq => hslot ⟨d, hd, heq⟩] at he
    have hold : name ∈ namesAt files place := mem_namesAt.2 ⟨hb, e, he⟩
    rw [hempty] at hold
    cases hold

theorem mem_missing_of_empty (hempty : namesAt files place = []) (hd : d ∈ ds) :
    d ∈ missing files place ds := by
  refine mem_missing.2 ⟨hd, ?_⟩
  cases hentry : files.entry? (slot place d) with
  | none => rfl
  | some e =>
    have hold : fileName d.id ∈ namesAt files place := mem_namesAt.2 ⟨⟨d.id, rfl⟩, e, hentry⟩
    rw [hempty] at hold
    cases hold

section

variable (hchosen : l.userDirectory = some directory) (hplace : Stands files directory place)
  (hempty : namesAt files place = []) (hnames : (withCopies files place ds).HasNames)
  (hds : AreNamed ds) (hroom : ∀ d ∈ ds, HasRoom directory d) (hread : ∀ d ∈ ds, d.IsRead)
  (hback : ∀ d ∈ ds, IsReadBack d)

include hplace hempty hds hroom hread hback

theorem ofFile_target : ∀ d ∈ ds,
    (ofFile (withCopies files place ds) (target directory d) false).1 = .ok d.copied := by
  intro d hd
  exact ofFile_copy (hplace.grows (grows_withCopies files place ds)) (hds.no_slash d hd)
    (hroom d hd) (hread d hd) (hback d hd)
    (entry?_withCopies hds (mem_missing_of_empty hempty hd))

include hchosen hnames

/-- The list holds the copies, and nothing else. -/
theorem listed_withCopies (hknown : AreBuiltIn ds) : ∃ us,
    l.listed (withCopies files place ds) (.ok ds) = .ok us ∧
      ∀ u, u ∈ us ↔ ∃ d ∈ ds, u = d.copied := by
  have hlater := hplace.grows (grows_withCopies files place ds)
  have hdirectory : l.HasDirectory (withCopies files place ds) directory place :=
    ⟨hchosen, hlater.located, hlater.is_directory⟩
  have hcopy := ofFile_target hplace hempty hds hroom hread hback
  have hpaths : ∀ p ∈ (namesAt (withCopies files place ds) place).map directory.child,
      ∃ d ∈ ds, p = target directory d := by
    intro p hp
    obtain ⟨name, hname, rfl⟩ := List.mem_map.1 hp
    obtain ⟨d, hd, rfl⟩ := mem_namesAt_withCopies hempty hname
    exact ⟨d, hd, rfl⟩
  obtain ⟨users, husers⟩ := exists_readUsers.2 fun p hp => by
    obtain ⟨d, hd, rfl⟩ := hpaths p hp
    exact ⟨_, hcopy d hd⟩
  have hlisted : l.listed (withCopies files place ds) (.ok ds) =
      .ok (sort (insertAll users ds)) := by
    rw [listed, bind_of_eq_ok rfl, bind_of_eq_ok hdirectory.userPaths_eq, bind_of_eq_ok husers]
  refine ⟨_, hlisted, fun u => ?_⟩
  have hunder := (listed_eq_ok hknown hlisted).1
  have hcopied : ∀ d ∈ ds, l.listedAs (withCopies files place ds) ds d.id = some d.copied := by
    intro d hd
    have hfile : l.listedFile (withCopies files place ds) d.id = some (target directory d) :=
      listedFile_of_isFile hnames hdirectory (hread d hd).id_ne_nil (hds.no_slash d hd)
        (ofFile_eq_ok (hcopy d hd)).2.2
    have htemplate : templateIn (withCopies files place ds) (target directory d) =
        some d.copied := by
      rw [templateIn, hcopy d hd]
      rfl
    rw [listedAs, hfile, Option.bind_some, htemplate, Option.some_or]
  constructor
  · intro hu
    have hsame := (hunder u.id u).1 ⟨hu, rfl⟩
    by_cases hid : ∃ d ∈ ds, d.id = u.id
    · obtain ⟨d, hd, hid⟩ := hid
      rw [← hid, hcopied d hd] at hsame
      exact ⟨d, hd, (Option.some.inj hsame).symm⟩
    · -- what is not under the id of a copy is neither in a file nor a built-in template
      have hnofile : l.listedFile (withCopies files place ds) u.id = none := by
        rw [listedFile, hdirectory.userPaths_eq]
        refine List.find?_eq_none.2 fun p hp hstem => ?_
        obtain ⟨d, hd, rfl⟩ := hpaths p (List.mem_reverse.1 hp)
        rw [stem_target (hds.no_slash d hd) (hread d hd).id_ne_nil] at hstem
        exact hid ⟨d, hd, by simpa using hstem⟩
      rw [listedAs, hnofile] at hsame
      exact absurd ⟨u, ((find?_eq_some_iff hds.distinct).1 hsame).1, rfl⟩ hid
  · rintro ⟨d, hd, rfl⟩
    exact ((hunder d.id _).2 (hcopied d hd)).1

end

theorem stripLeft_eq_self_iff {t : Text} :
    Text.stripLeft t = t ↔ ∀ c ∈ t.head?, Text.isSpace c = false :=
  ⟨fun h => h ▸ Text.head_stripLeft t, Text.stripLeft_eq_self⟩

theorem plainDescription_ne_nil (name : Text) : plainDescription name ≠ [] :=
  List.append_ne_nil_of_right_ne_nil _ (by decide)

theorem copied_description_iff : d.copied.description = d.description ↔ d.description ≠ [] := by
  unfold copied
  dsimp only
  split
  · rename_i hempty
    rw [hempty]
    exact iff_of_false (plainDescription_ne_nil d.name) (not_not_intro rfl)
  · exact iff_of_true rfl ‹_›

/-- After installing where the user has no templates, the list holds the copy of each built-in
template and nothing else.  A copy has the description and the content of its template exactly
if the description is not empty and the content does not start with a blank.  That the entry of
a description is read as it was written is a hypothesis. -/
theorem list_after_install (hchosen : l.userDirectory = some directory)
    (hnames : s.files.IsNamed) (hway : ∀ x ∈ directory.parts, '/' ∉ x) (hread : l.HasRead s)
    (hgiven : l.given s.files s.builtIns = .ok ds)
    (hempty : namesIn (s.files.makeDirectories directory).1 directory = .ok [])
    (hback : ∀ d ∈ ds, IsReadBack d) {written : List Path}
    (hinstall : l.install.outcome s = (.ok written, t)) :
    ∃ us, (l.list.outcome t).1 = .ok us ∧ (∀ u, u ∈ us ↔ ∃ d ∈ ds, u = d.copied) ∧
      ∀ d ∈ ds, d.copied.id = d.id ∧ d.copied.name = d.name ∧ d.copied.builtIn = false ∧
        (d.copied.description = d.description ↔ d.description ≠ []) ∧
        (d.copied.content = d.content ↔ ∀ c ∈ d.content.head?, Text.isSpace c = false) := by
  have hmade : (s.files.makeDirectories directory).2 = .ok () := by
    cases hmade : (s.files.makeDirectories directory).2 with
    | error e =>
      rw [outcome_install_of_refused hchosen hmade] at hinstall
      cases hinstall
    | ok u => rfl
  obtain ⟨earlier, hearlier, hkept⟩ := hread.exists_kept hnames.has_names hgiven
  have hisRead : ∀ d ∈ ds, d.IsRead := fun d hd =>
    isRead_of_comesFrom hearlier (comesFrom_of_mem_kept (hkept ▸ hd))
  have hbuiltIn : AreBuiltIn ds := hkept ▸ areBuiltIn_kept ⟨.nil, nofun⟩
  rcases install_ends hchosen hnames hway hread hgiven hmade with
    ⟨hall, hds, place, log, hplace, h⟩ | ⟨_, e, he⟩
  · have hleft := (Prod.mk.inj (h.symm.trans hinstall)).2
    have hfiles : t.files = withCopies (furnished s directory).files place ds := by
      rw [← hleft]
      rfl
    have hknown : t.builtIns = ds := by
      rw [← hleft]
      rfl
    have hnone : namesAt (furnished s directory).files place = [] :=
      Except.ok.inj (hplace.namesIn_eq.symm.trans hempty)
    have hmadeNames := hnames.makeDirectories hway
    have hlaterNames := hasNames_withCopies hmadeNames.has_names
      (FileTree.no_slash_of_locate hmadeNames.workplace hway hplace.located) hds.no_slash
    obtain ⟨us, hus, hmem⟩ := listed_withCopies hchosen hplace hnone hlaterNames hds hall.2
      hisRead hback hbuiltIn
    have hgivenAfter : l.given t.files t.builtIns = .ok ds := by
      rw [hknown, given_of_ne_nil (ne_nil_of_given hgiven)]
    obtain ⟨log', ds', hlist, _⟩ := finds_list t rfl hgivenAfter
    rw [hfiles, hus] at hlist
    exact ⟨us, congrArg Prod.fst hlist, hmem, fun d _ =>
      ⟨rfl, rfl, rfl, copied_description_iff, stripLeft_eq_self_iff⟩⟩
  · rw [hinstall] at he
    cases he

/-- Two built-in templates, one of which states a description. -/
def described : Shelf :=
  twoFiles (Text.encode "---\ndescription: Plain\n---\nA".toList) [0x42]

def describedTemplates : List TemplateDefinition :=
  [{ id := ['a'], name := ['A'], description := "Plain".toList, content := ['A'],
     builtIn := true },
   { id := ['b'], name := ['B'], description := "The B template.".toList, content := ['B'],
     builtIn := true }]

/-- Both are read back unchanged. -/
theorem list_after_install_described :
    described.files.IsNamed ∧ ofUser.HasRead described ∧
      ofUser.given described.files described.builtIns = .ok describedTemplates ∧
      namesIn (described.files.makeDirectories (Path.ofText "user".toList)).1
        (Path.ofText "user".toList) = .ok [] ∧
      (∀ d ∈ describedTemplates, IsReadBack d) ∧
      ∃ written t us, ofUser.install.outcome described = (.ok written, t) ∧
        (ofUser.list.outcome t).1 = .ok us ∧ ∀ d ∈ describedTemplates,
          ∃ u ∈ us, u.id = d.id ∧ u.description = d.description ∧ u.content = d.content := by
  have hnames : described.files.IsNamed := ⟨by decide +kernel, nofun⟩
  have hread : ofUser.HasRead described := .inl rfl
  have hgiven : ofUser.given described.files described.builtIns = .ok describedTemplates := by
    decide +kernel
  have hempty : namesIn (described.files.makeDirectories (Path.ofText "user".toList)).1
      (Path.ofText "user".toList) = .ok [] := by
    decide +kernel
  have hback : ∀ d ∈ describedTemplates, IsReadBack d := by decide +kernel
  have hwritten : (ofUser.install.outcome described).1 =
      .ok [Path.ofText "user/a.md".toList, Path.ofText "user/b.md".toList] := by
    decide +kernel
  have hwhole : ∀ d ∈ describedTemplates,
      d.description ≠ [] ∧ ∀ c ∈ d.content.head?, Text.isSpace c = false := by
    simp only [describedTemplates, List.forall_mem_cons]
    refine ⟨⟨by decide, ?_⟩, ⟨by decide, ?_⟩, nofun⟩
    · rintro c ⟨⟩
      decide
    · rintro c ⟨⟩
      decide
  rcases hinstall : ofUser.install.outcome described with ⟨x, t⟩
  rw [hinstall] at hwritten
  obtain rfl : x = _ := hwritten
  obtain ⟨us, hus, hmem, hsame⟩ :=
    list_after_install rfl hnames (by decide +kernel) hread hgiven hempty hback hinstall
  refine ⟨hnames, hread, hgiven, hempty, hback, _, t, us, rfl, hus, fun d hd => ?_⟩
  obtain ⟨hid, _, _, hdescription, hcontent⟩ := hsame d hd
  exact ⟨d.copied, (hmem _).2 ⟨d, hd, rfl⟩, hid, hdescription.2 (hwhole d hd).1,
    hcontent.2 (hwhole d hd).2⟩

/-- The first of two built-in templates starts with a blank, or states a blank description. -/
def indented : Shelf := twoFiles (Text.encode " A".toList) [0x42]

def undescribed : Shelf :=
  twoFiles (Text.encode "---\ndescription: ' '\n---\nA".toList) [0x42]

/-- Their copies have lost the blank, or got a description. -/
theorem list_after_install_changes :
    (((ofUser.builtIns.outcome indented).1.map fun ds => ds.map (·.content)) =
        .ok [" A".toList, "B".toList] ∧
      ((ofUser.list.outcome (ofUser.install.outcome indented).2).1.map fun ds =>
        ds.map fun d => (d.builtIn, d.content)) = .ok [(false, "A".toList), (false, "B".toList)]) ∧
    ((ofUser.builtIns.outcome undescribed).1.map fun ds => ds.map (·.description)) =
        .ok [[], "The B template.".toList] ∧
      ((ofUser.list.outcome (ofUser.install.outcome undescribed).2).1.map fun ds =>
        ds.map fun d => (d.builtIn, d.description)) =
          .ok [(false, "The A template.".toList), (false, "The B template.".toList)] := by
  decide +kernel

end Library
end Marginalia
