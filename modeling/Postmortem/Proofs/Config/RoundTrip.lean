import Postmortem.Config.Json
import Postmortem.Proofs.Json.Written

/-!
# Settings that were written are read back

The document of some settings fills every field of theirs, whatever they were before. So what was
written gives the same settings again, and these the same text.
-/
namespace Postmortem

open Json Json.Reader

theorem Demangle.Style.readsDocument (style : Demangle.Style) :
    ReadsDocument (choice choices) (.text style.name) style := by
  cases style with
  | nameOnly => exact choice_readsDocument (by decide) rfl
  | complete => exact choice_readsDocument (by decide) rfl

theorem ImageConfig.readsDocument (c start : ImageConfig) :
    ReadsDocument (record fields start) c.document c := by
  have hsize := natural_readsDocument c.maxImageSize.toNat_lt (Nat.le_refl significandLimit)
  refine record_readsDocument ?_
  refine .field rfl (by decide) (by decide) hsize ?_
  rw [UInt64.ofNat_toNat]
  exact .nil

theorem RenderConfig.readsDocument (c start : RenderConfig) :
    ReadsDocument (record fields start) c.document c := by
  have hlimit : UInt32.size ≤ significandLimit := by decide
  have hlines := natural_readsDocument c.sourceContextLines.toNat_lt hlimit
  refine record_readsDocument ?_
  refine .field rfl (by decide) (by decide) hlines ?_
  refine .field rfl (by decide) (by decide) (bool_readsDocument c.showSource) ?_
  refine .field rfl (by decide) (by decide) (bool_readsDocument c.nudgeReturnAddresses) ?_
  rw [UInt32.ofNat_toNat]
  exact .nil

theorem Config.readsDocument (c start : Config) :
    ReadsDocument (record fields start) c.document c := by
  have hstyle := c.demangleStyle.readsDocument
  have himages := c.images.readsDocument {}
  have hrender := c.render.readsDocument {}
  refine record_readsDocument ?_
  refine .field rfl (by decide) (by decide) (bool_readsDocument c.demangle) ?_
  refine .field rfl (by decide) (by decide) hstyle ?_
  refine .field rfl (by decide) (by decide) himages ?_
  refine .field rfl (by decide) (by decide) hrender ?_
  exact .nil

/-- Settings that were written are read back as they were, and written again as the same text. -/
theorem Config.ofJson_toJson (c : Config) :
    ofJson c.toJson = .ok c ∧ (ofJson c.toJson).map toJson = .ok c.toJson := by
  have hdocument := c.readsDocument {}
  have hread := document_pretty hdocument
  have hsettings : ofJson c.toJson = .ok c := hread
  refine ⟨hsettings, ?_⟩
  rw [hsettings]
  rfl

end Postmortem
