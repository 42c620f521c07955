import SymbolPaths.Proofs.Disk.Written
import SymbolPaths.Proofs.Settings.Form
import SymbolPaths.Settings.File

/-!
# Saved settings are loaded as they are

Whether settings make sense is not asked when they are saved, only when they are loaded. What is
loaded are the settings that were saved, or else loading fails with what is wrong with them: never
with the form of the file, and never with other settings.

* `Settings.load_save`: what comes of loading saved settings.
-/

namespace SymbolPaths.Settings

variable {d : Disk} {path : String}

theorem parse_render (s : Settings) : parse s.render = match s.validate with
    | .ok () => .ok s
    | .error e => .error (.config e) := by
  rw [parse, ofText?_render]
  dsimp only
  cases s.validate <;> rfl

/-- Settings can be saved wherever a file can be written, which is then a mapping with an entry for
    each choice that they make. They are loaded as they are if they make sense, and otherwise
    loading fails with what is wrong with them. -/
theorem load_save (s : Settings) (hwritable : d.IsWritable path) :
    (s.save path d).2 = .ok () ∧
      (∃ text entries, (s.save path d).1.readText path = .ok text ∧
        Yaml.readDocument? text.toList = some (.mapping entries) ∧
        entries.map (·.1) = s.choices.map fun key => .scalar .plain none key.name) ∧
      load path (s.save path d).1 = match s.validate with
        | .ok () => .ok s
        | .error e => .error (.config e) := by
  have hmakes := hwritable.makes
  obtain ⟨n, hopens⟩ := hwritable.opens
  rw [save]
  generalize d.makeDirs (FilePath.parent path) = made at hmakes hopens ⊢
  obtain ⟨d', result⟩ := made
  obtain rfl : result = .ok () := hmakes
  obtain ⟨hwrites, hread⟩ := Disk.readText_writeFile hopens s.render
  dsimp only
  generalize d'.writeFile path (Text.encode s.render) = written at hwrites hread ⊢
  obtain ⟨d'', result⟩ := written
  obtain rfl : result = .ok () := hwrites
  obtain ⟨entries, hdocument, hnames, -⟩ := exists_readDocument?_render s
  refine ⟨rfl, ⟨s.render, entries, hread, hdocument, hnames⟩, ?_⟩
  rw [load, hread]
  exact parse_render s

/-- Texts that look like something else stay texts. -/
theorem load_save_null : Disk.empty.IsWritable "/home/codetag/settings.yaml" ∧
    ∃ s : Settings, s.preDownloadLangs = ["", " 12 ", "yes\n\n"] ∧ s.grammarVersion = "null" ∧
      s.cacheDir = some "~" ∧
      (s.save "/home/codetag/settings.yaml" Disk.empty).2 = .ok () ∧
      load "/home/codetag/settings.yaml" (s.save "/home/codetag/settings.yaml" Disk.empty).1 =
        .ok s := by
  have hwritable : Disk.empty.IsWritable "/home/codetag/settings.yaml" := ⟨rfl, 0, rfl⟩
  obtain ⟨hsave, -, hload⟩ := load_save
    { standard with
      preDownloadLangs := ["", " 12 ", "yes\n\n"], grammarVersion := "null", cacheDir := some "~" }
    hwritable
  exact ⟨hwritable, _, rfl, rfl, rfl, hsave, hload.trans rfl⟩

end SymbolPaths.Settings
