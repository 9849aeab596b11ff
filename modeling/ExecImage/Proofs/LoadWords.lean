import ExecImage.Proofs.Elf.Words
import ExecImage.Proofs.Elf.Writer
import ExecImage.Proofs.Pe.RoundTrip
import ExecImage.Proofs.Pe.Words

/-!
# No offset overflows

A load in words takes every step of a load and computes every offset that is not checked with operations that stop it where a sum or a
product is no word of 64 bits, a difference is negative or a divisor is zero. It never stops: of every file that a machine can hold it gives
what the load gives (`run_loadInWords`), whichever format is asked for and however large the limits are.
-/

namespace ExecImage

/-- Loads an image under a label in words, with the log of the load. -/
def loadInWords (v : View) (source : String) (hint : FormatHint) (options : Options) : Words Loaded := do
  match ← hint.select v with
  | .elf => (← Elf.Image.readInWords v options).loadInWords source options
  | .pe => (← Pe.Image.readInWords v options).loadInWords source options
  | .unrecognized => throw .unsupportedFormat

/-- Every operation on offsets has its result in words, in every load of a file whose size is a word. -/
theorem run_loadInWords {v : View} (hsize : v.size < 2 ^ 64) (source : String) (hint : FormatHint) (options : Options) :
    (loadInWords v source hint options).run = some (loadLogged v source hint options) := by
  have hlift : loadInWords v source hint options = liftM (loadLogged v source hint options) := by
    unfold loadInWords loadLogged
    rw [liftM_bind]
    refine Words.bind_congr fun format _ => ?_
    cases format with
    | elf => simp only [Elf.Image.readInWords_eq hsize, Elf.Image.loadInWords_eq, liftM_bind]
    | pe => simp only [Pe.Image.readInWords_eq, Pe.Image.loadInWords_eq, liftM_bind]
    | unrecognized => rfl
  rw [hlift]
  exact Words.run_lift _

/-- An ELF image with a section of code, and a PE image with one and with four symbols, are loaded in words. -/
theorem run_loadInWords_samples :
    (∃ r, (loadInWords Elf.ImageSpec.sample.view "image" .auto {}).run = some (.ok r) ∧ r.binary.sections.length = 1) ∧
      ∃ r, (loadInWords Pe.ImageSpec.linked.view "image" .auto {}).run = some (.ok r) ∧ r.binary.symbols.length = 4 := by
  have helf : (loadLogged Elf.ImageSpec.sample.view "image" .auto {}).toOption.map (fun r => r.binary.sections.length) = some 1 := by
    decide +kernel
  have hpe : (loadLogged Pe.ImageSpec.linked.view "image" .auto {}).toOption.map (fun r => r.binary.symbols.length) = some 4 := by
    decide +kernel
  obtain ⟨r, hr, hsections⟩ := Except.exists_of_toOption_map helf
  obtain ⟨r', hr', hsymbols⟩ := Except.exists_of_toOption_map hpe
  refine ⟨⟨r, ?_, hsections⟩, r', ?_, hsymbols⟩
  · rw [run_loadInWords (by decide +kernel), hr]
  · rw [run_loadInWords (by decide +kernel), hr']

end ExecImage
