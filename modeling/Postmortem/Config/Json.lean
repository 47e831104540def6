import Postmortem.Config.Basic
import Postmortem.Json.Document
import Postmortem.Json.Record

/-!
# Settings as a document

Settings are written as JSON with all their fields. A document that is read may leave any of them
out; what it does not mention keeps its default.
-/
namespace Postmortem

open Json Json.Reader

namespace Demangle.Style

/-- The names of the styles. -/
def choices : List (String × Style) := [("name_only", .nameOnly), ("complete", .complete)]

def name : Style → String
  | nameOnly => "name_only"
  | complete => "complete"

end Demangle.Style

namespace ImageConfig

def fields : List (RecordField ImageConfig) :=
  [.of "max_image_size" (natural UInt64.size) fun c n => { c with maxImageSize := UInt64.ofNat n }]

def document (c : ImageConfig) : Document :=
  .object [("max_image_size", .number c.maxImageSize.toNat)]

end ImageConfig

namespace RenderConfig

def fields : List (RecordField RenderConfig) :=
  [.of "source_context_lines" (natural UInt32.size) fun c n =>
     { c with sourceContextLines := UInt32.ofNat n },
   .of "show_source" bool fun c b => { c with showSource := b },
   .of "nudge_return_addresses" bool fun c b => { c with nudgeReturnAddresses := b }]

def document (c : RenderConfig) : Document :=
  .object [("source_context_lines", .number c.sourceContextLines.toNat),
    ("show_source", .bool c.showSource),
    ("nudge_return_addresses", .bool c.nudgeReturnAddresses)]

end RenderConfig

namespace Config

def fields : List (RecordField Config) :=
  [.of "demangle" bool fun c b => { c with demangle := b },
   .of "demangle_style" (choice Demangle.Style.choices) fun c s => { c with demangleStyle := s },
   .of "io" (record ImageConfig.fields {}) fun c i => { c with images := i },
   .of "render" (record RenderConfig.fields {}) fun c r => { c with render := r }]

/-- Reads settings; fields that are missing take their defaults. -/
def ofJson (text : String) : Except Fault Config := Reader.document (record fields {}) text

def document (c : Config) : Document :=
  .object [("demangle", .bool c.demangle), ("demangle_style", .text c.demangleStyle.name),
    ("io", c.images.document), ("render", c.render.document)]

/-- Writes settings with all fields. -/
def toJson (c : Config) : String := c.document.pretty 0

end Config

end Postmortem
