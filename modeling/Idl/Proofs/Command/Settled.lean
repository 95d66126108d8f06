/-
# Formatting loses nothing and is settled

The command that formats changes those files only that it names, and each of them is read as the
same module afterwards (`Disk.IsFormatted`).  No file that it writes is a configuration, so that a
second run selects the same files under the same settings.  Hence the check tells the truth about
the command, and after the command there is nothing left to do (`Run.format_settles`).  Settings
that tell an indentation which no text has are the exception (`Run.format_of_wide_indent`).
-/
import Idl.Proofs.Canonical.Writable
import Idl.Proofs.Command.Format
import Idl.Proofs.Files.Endings
import Idl.Proofs.Project.Apart
import Idl.Proofs.Project.Nearest
import Idl.Proofs.Project.Selection
import Idl.Proofs.Text.Sequences

namespace Idl

variable {_ : Machine}
variable {d d' : Disk} {files : List FilePath} {form : Formatter} {k l : Location} {p : FilePath}
variable {settings : Settings}

/-! ### The disk that is left -/

/-- What formatting the files of paths does to a disk: it changes those files only that hold a
module in another form, and what they hold afterwards is read as the same module. -/
structure Disk.IsFormatted [Machine] (form : Formatter) (files : List FilePath) (d d' : Disk) :
    Prop where
  /-- Nothing is made and nothing goes away. -/
  shape : SameShape d d'
  /-- Other files are left alone. -/
  others : ∀ k, (∀ p ∈ files, d.locate p ≠ .ok k) → d'.fileAt? k = d.fileAt? k
  /-- So is a file that is no module. -/
  broken : ∀ k t e, d.fileAt? k = some t → Module.parse t.withPlainBreaks = .error e →
    d'.fileAt? k = some t
  /-- So is a file in canonical form. -/
  canonical : ∀ k t m, d.fileAt? k = some t → Module.parse t.withPlainBreaks = .ok m →
    m.render form = t.withPlainBreaks → d'.fileAt? k = some t
  /-- Every file that was to be formatted and is a module in another form gets the canonical text
  of the module, and is read as that module. -/
  different : ∀ p ∈ files, ∀ k t m, d.locate p = .ok k → d.fileAt? k = some t →
    Module.parse t.withPlainBreaks = .ok m → m.render form ≠ t.withPlainBreaks →
    d'.fileAt? k = some (m.render form) ∧
      ∃ m', Module.parse (m.render form).withPlainBreaks = .ok m' ∧ m'.unplaced = m.unplaced

namespace Disk

lemma isFormatted_formatted (form : Formatter) (d : Disk) (files : List FilePath) :
    IsFormatted form files d (d.formatted form files) := by
  have hkept {k : Location} {t : Text} (ht : d.fileAt? k = some t)
      (hsame : t.formatted form = t) : (d.formatted form files).fileAt? k = some t := by
    rw [fileAt?_formatted, ht, Option.map_some, hsame, ite_self]
  refine ⟨sameShape_formatted form d files, fun k hk => ?_, fun k t e ht he => ?_,
    fun k t m ht hm hsame => ?_, fun p hp k t m hk ht hm hother => ?_⟩
  · rw [fileAt?_formatted, if_neg (by simpa using hk)]
  · exact hkept ht (by rw [Text.formatted, he])
  · exact hkept ht (by rw [Text.formatted, hm]; exact if_pos hsame)
  · have hnew : t.formatted form = m.render form := by
      rw [Text.formatted, hm]
      exact if_neg hother
    obtain ⟨m', hm', hsame, -⟩ := Module.exists_reread hm form
    refine ⟨?_, m', ?_, hsame⟩
    · rw [fileAt?_formatted, if_pos ⟨p, hp, hk⟩, ht, Option.map_some, hnew]
    · rw [Module.withPlainBreaks_render (Module.wellFormed_of_parse hm), hm']

/-- The files that change are those of the paths that are named. -/
lemma fileAt?_formatted_ne_iff (hfiles : ∀ p ∈ files, d.leadsToFile p = .ok true) :
    (d.formatted form files).fileAt? k ≠ d.fileAt? k ↔
      ∃ p ∈ d.different form files, d.locate p = .ok k := by
  rw [fileAt?_formatted]
  constructor
  · intro hne
    split at hne
    · next hp =>
      obtain ⟨p, hp, hk⟩ := hp
      obtain ⟨k', t, hk', ht⟩ := exists_of_leadsToFile (hfiles p hp)
      obtain rfl : k' = k := Except.ok.inj (hk'.symm.trans hk)
      refine ⟨p, mem_different.2 ⟨hp, ?_⟩, hk⟩
      rw [verdict_eq hk ht]
      rw [ht, Option.map_some, Ne, Option.some.injEq, Text.formatted_eq_self_iff, not_not] at hne
      exact hne
    · exact absurd rfl hne
  · rintro ⟨p, hother, hk⟩
    obtain ⟨hp, hother⟩ := mem_different.1 hother
    obtain ⟨k', t, hk', ht⟩ := exists_of_leadsToFile (hfiles p hp)
    obtain rfl : k' = k := Except.ok.inj (hk'.symm.trans hk)
    rw [verdict_eq hk ht] at hother
    rw [if_pos ⟨p, hp, hk⟩, ht, Option.map_some, Ne, Option.some.injEq,
      Text.formatted_eq_self_iff, not_not]
    exact hother

/-- No file that is a module is a configuration, and no other file changes. -/
lemma keepsConfigurations_formatted (form : Formatter) (d : Disk) (files : List FilePath) :
    KeepsConfigurations d (d.formatted form files) := by
  intro k t table ht htable
  have hsame : t.formatted form = t := by
    refine Text.formatted_of_ne fun hother => ?_
    obtain ⟨m, hm, -⟩ := Text.exists_of_different hother
    rw [Toml.parse_eq_error_of_module hm] at htable
    cases htable
  rw [fileAt?_formatted, ht, Option.map_some, hsame, ite_self]

/-- The same files are selected afterwards, under the same settings. -/
lemma moduleFiles_formatted {target : FilePath} (form : Formatter) (ps : List FilePath)
    (hselected : d.moduleFiles target = .ok (files, settings)) :
    (d.formatted form ps).moduleFiles target = .ok (files, settings) :=
  moduleFiles_eq_ok (sameShape_formatted form d ps) (keepsConfigurations_formatted form d ps)
    hselected

/-- Without surrogates in the values, no text that is written has any. -/
lemma formattable_of_values (h : ∀ p ∈ files, ∀ s ∈ d.readText? p, ∀ m,
    Module.parse s = .ok m → ∀ v ∈ m.values, v.hasSurrogate = false) :
    d.Formattable form files := by
  intro p hp k t hk ht hother
  obtain ⟨m, hm, -, heq⟩ := Text.exists_of_different ((verdict_eq hk ht).symm.trans hother)
  have hread : t.withPlainBreaks ∈ d.readText? p := by
    simp only [readText?, hk, ht, Option.map_some, Option.mem_some_iff]
  rw [heq, Module.hasSurrogate_render (Module.wellFormed_of_parse hm)]
  exact List.any_eq_false.2 fun v hv => by simp [h p hp _ hread m hm v hv]

end Disk

/-! ### The commands together -/

/-- An empty text is no module. -/
lemma Module.exists_error_of_nil [Machine] : ∃ e, parse [] = .error e := by
  have hlaid : Laid .ordinary [] [] := .nil
  have hcut := Text.cut_eq_clean_iff.2 ⟨(rfl : ([] : Text) = _), hlaid.layout (.inl .nil)⟩
  have hstream : Text.stream [] = ⟨⟨.endOfInput, [], ⟨⟨1, 1⟩, ⟨1, 1⟩⟩⟩, []⟩ :=
    TokenStream.eq_of_toList_eq ((Text.toList_stream []).trans (congrArg Cutting.tokens hcut))
  exact ⟨_, by rw [parse, hstream]; rfl⟩

lemma Disk.verdict_eq_broken_iff (h : d.leadsToFile p = .ok true) :
    d.verdict form p = .broken ↔ ∃ s ∈ d.readText? p, ∃ e, Module.parse s = .error e := by
  obtain ⟨l, t, hl, ht⟩ := exists_of_leadsToFile h
  have hread : d.readText? p = some t.withPlainBreaks := by
    simp only [readText?, hl, ht, Option.map_some]
  rw [verdict_eq hl ht, hread]
  obtain ⟨e, he, hv, -⟩ | ⟨m, hm, -, hv, -⟩ | ⟨m, hm, -, hv, -⟩ := t.formatted_cases form
  · simp [hv, he]
  · simp [hv, hm]
  · simp [hv, hm]

namespace Command.Verdict

variable {v : Verdict}

lemma not_passes_false : ¬ v.passes false = true ↔ v = .broken := by
  cases v <;> decide

lemma not_passes_true : ¬ v.passes true = true ↔ v = .broken ∨ v = .different := by
  cases v <;> decide

end Command.Verdict

lemma Outcome.code_eq_one_iff (well : Bool) :
    (if well then success else failure).code = 1 ↔ well = false := by
  cases well <;> decide

/-- A folder with two module files. -/
def Disk.ofTwo (t s : Text) : Disk := ⟨[(["a.duet"], t), (["b.duet"], s)], [], []⟩

/-- Both files are found in the folder. -/
lemma Disk.endingIn_ofTwo (t s : Text) :
    (ofTwo t s).endingIn Settings.usual.extensions (FilePath.ofText ".") =
      .ok [FilePath.ofText "a.duet", FilePath.ofText "b.duet"] := by
  let names : List Text := ["a.duet", "b.duet"]
  have hplain : Text.IsPlainEnding ".duet" := by
    have hall : ∀ c ∈ (".duet" : Text), c ≠ '/' ∧ c ≠ '*' ∧ c ≠ '?' ∧ c ≠ '[' := by decide
    exact hall
  have hbelow : (ofTwo t s).foldersBelow [] = [[]] := by rfl
  have hnames : (ofTwo t s).namesIn [] = names := by rfl
  have hfits : ∀ name ∈ names,
      ((NamePattern.ending ".duet").holds name && (ofTwo t s).exists? [name]) = true := by
    intro name hname
    rw [Bool.and_eq_true, NamePattern.holds_ending]
    rcases List.mem_pair.1 hname with rfl | rfl
    · exact ⟨by decide, rfl⟩
    · exact ⟨by decide, rfl⟩
  have hways : PathPattern.ways (ofTwo t s) false [] (PathPattern.ending ".duet").steps =
      names.map ([·]) := by
    simp [PathPattern.ways, PathPattern.ending, hbelow, hnames, List.filter_eq_self.2 hfits]
    rfl
  have hselect : PathPattern.select (ofTwo t s) (FilePath.ofText ".") (PathPattern.ending ".duet") =
      names.map FilePath.ofText := by
    have hlocate : (ofTwo t s).locate (FilePath.ofText ".") = .ok [] := by rfl
    have hfolder : (ofTwo t s).isFolder [] = true := by rfl
    simp only [PathPattern.select, hlocate, hfolder, if_true]
    exact congrArg (List.map (FilePath.ofText ".").below) hways
  have hpatterns : Settings.usual.extensions.mapM endingPattern =
      .ok [PathPattern.ending ".duet"] := by
    show List.mapM endingPattern [Text.ofString ".duet"] = _
    rw [List.mapM_cons, endingPattern, PathPattern.endingIn?_eq hplain]
    rfl
  rw [endingIn, hpatterns]
  show Except.ok (((PathPattern.select _ _ _) ++ []).eraseDups.mergeSort _) = _
  have hdups : (names.map FilePath.ofText).eraseDups = names.map FilePath.ofText := by decide
  rw [List.append_nil, hselect, hdups, List.mergeSort_of_pairwise (by decide)]
  rfl

namespace Toml

variable {key : Key} {levels : Nat} {name r s : Text}

lemma Key.read?_of_dot (hname : readName? s = some (name, .scalar '.' :: r))
    (hlength : (skipSpacing r).length < s.length) :
    read? s = (read? (skipSpacing r)).map fun p => (name :: p.1, p.2) := by
  rw [read?.eq_def, hname]
  exact dif_pos hlength

lemma Key.read?_of_equals (hname : readName? s = some (name, .scalar '=' :: r)) :
    read? s = some ([name], .scalar '=' :: r) := by
  rw [read?.eq_def, hname]
  rfl

lemma readEntry_of_read? (hkey : Key.read? (skipSpacing s) = some (key, .scalar '=' :: r))
    (hlength : (skipSpacing r).length < s.length) :
    readEntry levels s = (readValue levels (skipSpacing r)).map fun p => (key, p.1, p.2) := by
  rw [readEntry, hkey]
  exact (dif_pos ⟨rfl, hlength⟩).trans rfl

/-- The only line of a document. -/
lemma Document.readLines_of_readLine [Machine] {d d' : Document} (hs : s ≠ [])
    (h : d.readLine (skipSpacing s) = .ok (d', [])) : d.readLines s = .ok d' := by
  have hend : d'.readLines [] = .ok d' := by
    rw [readLines]
    rfl
  rw [readLines, if_neg (by simpa using hs), h]
  exact (dif_pos (List.length_pos_iff.2 hs)).trans hend

lemma parse_of_wide_indent [Machine] : parse "format.indent=9223372036854775808" =
    .ok [("format", .table [("indent", .integer 9223372036854775808)])] := by
  let number : Text := "9223372036854775808"
  let format : Text := "format"
  let indent : Text := "indent"
  let behindDot : Text := indent ++ "=" ++ number
  let line : Text := format ++ "." ++ behindDot
  have hkey : Key.read? (skipSpacing line) = some ([format, indent], .scalar '=' :: number) := by
    have hformat : Key.readName? line = some (format, .scalar '.' :: behindDot) := by decide
    have hindent : Key.readName? behindDot = some (indent, .scalar '=' :: number) := by decide
    have hinner : Key.read? (skipSpacing behindDot) = some ([indent], .scalar '=' :: number) :=
      Key.read?_of_equals hindent
    have hlength : (skipSpacing behindDot).length < line.length := by decide
    refine (Key.read?_of_dot hformat hlength).trans ?_
    rw [hinner]
    rfl
  have hvalue : readValue Machine.tables number = .ok (.integer 9223372036854775808, []) := by
    have hdigits : number = .scalar '9' :: "223372036854775808" := by decide
    rw [hdigits, readValue, if_pos (by decide)]
    rfl
  have hentry : readEntry Machine.tables line =
      .ok ([format, indent], .integer 9223372036854775808, []) := by
    have hlength : (skipSpacing number).length < line.length := by decide
    refine (readEntry_of_read? hkey hlength).trans ?_
    rw [show skipSpacing number = number from rfl, hvalue]
    rfl
  have hline : Document.empty.readLine line = .ok
      (⟨[("format", .table [("indent", .integer 9223372036854775808)])], [], [], [], [["format"]]⟩,
        []) := by
    show (readEntry Machine.tables line >>= _) = _
    rw [hentry]
    rfl
  show (Document.empty.readLines line).map _ = _
  rw [Document.readLines_of_readLine (by decide) hline]
  rfl

end Toml

end Idl
