import Mathlib.Data.List.TakeWhile
import Postmortem.Config.Json
import Postmortem.Proofs.Json.Extent

/-!
# Documents that name some settings

A document changes the settings that it names and leaves the others at their defaults. It may name
them in any order, and hold anything else in between. It may not name a setting twice.
-/
namespace Postmortem

open Json Json.Reader

variable {α β σ : Type}

namespace Json

/-- Whether a document is an object with the given members. -/
def IsDocument (text : String) (members : List Member) : Prop :=
  ∃ p : Padded, text.toList = p.text ∧ IsObject p.core members

/-- What the members of an object say of one name. If they have it, then with a text for the value,
and otherwise there is no value. -/
structure Says (members : List Member) (name : String) (isText : List Char → α → Prop)
    (said : Option α) : Prop where
  value : ∀ m ∈ members, m.name = name → ∃ a, said = some a ∧ isText m.value a
  named : said.isSome → ∃ m ∈ members, m.name = name

theorem Says.eq_none {members : List Member} {name : String} {isText : List Char → α → Prop}
    {said : Option α} (h : Says members name isText said) (habsent : ∀ m ∈ members, m.name ≠ name) :
    said = none := by
  cases said with
  | none => rfl
  | some a =>
    obtain ⟨m, hm, hname⟩ := h.named rfl
    exact absurd hname (habsent m hm)

/-- A field is read from its member as what is said of it. -/
theorem Says.reads {members : List Member} {name : String} {isText : List Char → α → Prop}
    {said : Option α} (h : Says members name isText said) {read : Reader β} {put : σ → β → σ}
    {value : α → β} {update : String → σ → σ}
    (hread : ∀ text a, isText text a → Reads read text (value a))
    (hput : ∀ a, said = some a → ∀ s, update name s = put s (value a))
    {m : Member} (hm : m ∈ members) (hname : name = m.name) (s : σ) :
    Reads ((RecordField.of name read put).read s) m.value (update m.name s) := by
  obtain ⟨a, hsaid, htext⟩ := h.value m hm hname.symm
  rw [← hname, hput a hsaid]
  exact (hread m.value a htext).of_field s

theorem bool_reads_of_eq {text : List Char} {b : Bool} (h : text = boolText b) :
    Reads bool text b := by
  rw [h]
  exact bool_reads b

theorem document_of_reads {read : Reader σ} {p : Padded} {s : σ} (h : Reads read p.core s)
    {document : String} (htext : document.toList = p.text) :
    Reader.document read document = .ok s := by
  have hafter : p.after.dropWhile isBlank = [] := List.dropWhile_eq_nil_iff.mpr p.after_blank
  have hread := h p.before p.after p.before_blank
    (by simpa using delimits_append p.after_blank delimits_nil)
  rw [Reader.document, htext, Padded.text, hread]
  simp [hafter]

theorem accepts_of_document {read : Reader σ} {p : Padded} {s : σ} {document : String}
    (htext : document.toList = p.text) (h : Reader.document read document = .ok s) :
    Accepts read p.core := by
  rw [Reader.document, htext, Padded.text] at h
  obtain ⟨r, hr, -⟩ := bind_eq_ok.mp h
  exact ⟨p.before, p.after, r, p.before_blank,
    by simpa using delimits_append p.after_blank delimits_nil, hr⟩

/-- The object of a field that is a record names nothing twice either. -/
theorem WereRead.nodup_of_record {fields : List (RecordField σ)} {inner : List (RecordField β)}
    {members ms : List Member} (h : WereRead fields members) {m : Member} (hm : m ∈ members)
    {name : String} {start : β} {put : σ → β → σ}
    (hfind : fields.find? (·.name = m.name) = some (.of name (record inner start) put))
    (hinner : FieldsTakeWhole inner) (hobject : IsObject m.value ms) :
    (Member.named inner ms).Nodup := by
  obtain ⟨s, hfield⟩ := h.accepts m hm _ hfind
  obtain ⟨gap, hgap, hvalue⟩ := hobject.text_eq
  rw [hvalue] at hfield
  exact (hfield.of_field.wereRead hinner hgap hobject.isValue).nodup

end Json

namespace ImageConfig

/-- Settings of reading images that are named. -/
structure Overrides where
  maxImageSize : Option UInt64 := none

namespace Overrides

/-- Settings with some of them replaced. -/
def apply (o : Overrides) (c : ImageConfig) : ImageConfig where
  maxImageSize := o.maxImageSize.getD c.maxImageSize

/-- Settings with the one of a name replaced. -/
def put (o : Overrides) (name : String) (c : ImageConfig) : ImageConfig :=
  if name = "max_image_size" then { c with maxImageSize := o.maxImageSize.getD c.maxImageSize }
  else c

/-- Members name just these settings, each once. -/
structure Describes (o : Overrides) (members : List Member) : Prop where
  nodup : (Member.named fields members).Nodup
  maxImageSize : Says members "max_image_size" (fun text n => text = (toString n.toNat).toList)
    o.maxImageSize

theorem foldl_put (o : Overrides) {members : List Member}
    (habsent : ∀ name, (∀ m ∈ members, m.name ≠ name) → ∀ c, o.put name c = c)
    (c : ImageConfig) : members.foldl (fun c m => o.put m.name c) c = o.apply c := by
  have hsize := foldl_get_of_absent (·.maxImageSize) "max_image_size" o.maxImageSize
    (fun other s => by simp only [put]; split_ifs <;> rfl) (habsent _) c
  generalize members.foldl (fun c m => o.put m.name c) c = result at hsize
  cases result
  simp_all [apply]

theorem put_of_unknown (o : Overrides) (name : String)
    (h : fields.find? (·.name = name) = none) (c : ImageConfig) : o.put name c = c := by
  have hname := name_ne_of_find? h
  simp only [fields, RecordField.of, List.forall_mem_cons] at hname
  rw [put, if_neg hname.1.symm]

theorem Describes.absent {o : Overrides} {members : List Member} (h : o.Describes members)
    (name : String) (habsent : ∀ m ∈ members, m.name ≠ name) (c : ImageConfig) :
    o.put name c = c := by
  unfold put
  split_ifs with hname
  · rw [h.maxImageSize.eq_none (hname ▸ habsent)]
    rfl
  · rfl

theorem Describes.updates {o : Overrides} {members : List Member} (h : o.Describes members)
    (hvalues : ∀ m ∈ members, IsValue m.value) : Updates fields o.put members where
  field m hm field hfind s := by
    have hname := name_of_find? hfind
    have hmem := List.mem_of_find?_eq_some hfind
    simp only [fields, List.mem_cons, List.not_mem_nil, or_false] at hmem
    subst hmem
    exact h.maxImageSize.reads
      (fun _ n htext => htext ▸ natural_reads n.toNat_lt (Nat.le_refl _))
      (fun n hsaid s => by simp [put, hsaid]) hm hname s
  other m hm _ := hvalues m hm
  unknown := o.put_of_unknown
  nodup := h.nodup

/-- Any object that names just these settings is read as them. -/
theorem Describes.reads {o : Overrides} {text : List Char} {members : List Member}
    (h : o.Describes members) (hobject : IsObject text members) (c : ImageConfig) :
    Reads (record fields c) text (o.apply c) :=
  (h.updates hobject.isValue).object_reads (o.foldl_put h.absent c) hobject

theorem Describes.reads_rearranged {o : Overrides} {text : List Char} {ms ms' : List Member}
    (h : o.Describes ms) (hvalues : ∀ m ∈ ms, IsValue m.value) (hobject : IsObject text ms')
    (hre : Member.Rearranged fields (fun _ => Eq) ms ms') (c : ImageConfig) :
    Reads (record fields c) text (o.apply c) :=
  (h.updates hvalues).reads_rearranged h.absent (fun _ => o.foldl_put) hre
    (fun _ _ _ heq _ _ _ _ hread => heq ▸ hread) hobject c

end Overrides

theorem fields_takeWhole : FieldsTakeWhole fields := by
  intro field hfield s text h
  simp only [fields, List.mem_cons, List.not_mem_nil, or_false] at hfield
  subst hfield
  exact of_takesWhole (natural_takesWhole _ h) s

end ImageConfig

namespace RenderConfig

/-- Settings of reports that are named. -/
structure Overrides where
  sourceContextLines : Option UInt32 := none
  showSource : Option Bool := none
  nudgeReturnAddresses : Option Bool := none

namespace Overrides

/-- Settings with some of them replaced. -/
def apply (o : Overrides) (c : RenderConfig) : RenderConfig where
  sourceContextLines := o.sourceContextLines.getD c.sourceContextLines
  showSource := o.showSource.getD c.showSource
  nudgeReturnAddresses := o.nudgeReturnAddresses.getD c.nudgeReturnAddresses

/-- Settings with the one of a name replaced. -/
def put (o : Overrides) (name : String) (c : RenderConfig) : RenderConfig :=
  if name = "source_context_lines" then
    { c with sourceContextLines := o.sourceContextLines.getD c.sourceContextLines }
  else if name = "show_source" then { c with showSource := o.showSource.getD c.showSource }
  else if name = "nudge_return_addresses" then
    { c with nudgeReturnAddresses := o.nudgeReturnAddresses.getD c.nudgeReturnAddresses }
  else c

/-- Members name just these settings, each once. -/
structure Describes (o : Overrides) (members : List Member) : Prop where
  nodup : (Member.named fields members).Nodup
  sourceContextLines : Says members "source_context_lines"
    (fun text n => text = (toString n.toNat).toList) o.sourceContextLines
  showSource : Says members "show_source" (fun text b => text = boolText b) o.showSource
  nudgeReturnAddresses : Says members "nudge_return_addresses" (fun text b => text = boolText b)
    o.nudgeReturnAddresses

theorem foldl_put (o : Overrides) {members : List Member}
    (habsent : ∀ name, (∀ m ∈ members, m.name ≠ name) → ∀ c, o.put name c = c)
    (c : RenderConfig) : members.foldl (fun c m => o.put m.name c) c = o.apply c := by
  have hlines := foldl_get_of_absent (·.sourceContextLines) "source_context_lines"
    o.sourceContextLines (fun other s => by simp only [put]; split_ifs <;> rfl) (habsent _) c
  have hsource := foldl_get_of_absent (·.showSource) "show_source" o.showSource
    (fun other s => by simp only [put]; split_ifs <;> simp_all) (habsent _) c
  have hnudge := foldl_get_of_absent (·.nudgeReturnAddresses) "nudge_return_addresses"
    o.nudgeReturnAddresses (fun other s => by simp only [put]; split_ifs <;> simp_all) (habsent _) c
  generalize members.foldl (fun c m => o.put m.name c) c = result at hlines hsource hnudge
  cases result
  simp_all [apply]

theorem Describes.absent {o : Overrides} {members : List Member} (h : o.Describes members)
    (name : String) (habsent : ∀ m ∈ members, m.name ≠ name) (c : RenderConfig) :
    o.put name c = c := by
  unfold put
  split_ifs with hname hname hname
  · rw [h.sourceContextLines.eq_none (hname ▸ habsent)]
    rfl
  · rw [h.showSource.eq_none (hname ▸ habsent)]
    rfl
  · rw [h.nudgeReturnAddresses.eq_none (hname ▸ habsent)]
    rfl
  · rfl

theorem put_of_unknown (o : Overrides) (name : String)
    (h : fields.find? (·.name = name) = none) (c : RenderConfig) : o.put name c = c := by
  have hname := name_ne_of_find? h
  simp only [fields, RecordField.of, List.forall_mem_cons] at hname
  obtain ⟨hlines, hsource, hnudge, -⟩ := hname
  rw [put, if_neg (Ne.symm hlines), if_neg (Ne.symm hsource), if_neg (Ne.symm hnudge)]

theorem Describes.updates {o : Overrides} {members : List Member} (h : o.Describes members)
    (hvalues : ∀ m ∈ members, IsValue m.value) : Updates fields o.put members where
  field m hm field hfind s := by
    have hname := name_of_find? hfind
    have hmem := List.mem_of_find?_eq_some hfind
    simp only [fields, List.mem_cons, List.not_mem_nil, or_false] at hmem
    obtain rfl | rfl | rfl := hmem
    · exact h.sourceContextLines.reads
        (fun _ n htext => htext ▸ natural_reads n.toNat_lt (by decide))
        (fun n hsaid s => by simp [put, hsaid]) hm hname s
    · exact h.showSource.reads (fun _ _ => bool_reads_of_eq)
        (fun b hsaid s => by simp [put, hsaid]) hm hname s
    · exact h.nudgeReturnAddresses.reads (fun _ _ => bool_reads_of_eq)
        (fun b hsaid s => by simp [put, hsaid]) hm hname s
  other m hm _ := hvalues m hm
  unknown := o.put_of_unknown
  nodup := h.nodup

/-- Any object that names just these settings is read as them. -/
theorem Describes.reads {o : Overrides} {text : List Char} {members : List Member}
    (h : o.Describes members) (hobject : IsObject text members) (c : RenderConfig) :
    Reads (record fields c) text (o.apply c) :=
  (h.updates hobject.isValue).object_reads (o.foldl_put h.absent c) hobject

theorem Describes.reads_rearranged {o : Overrides} {text : List Char} {ms ms' : List Member}
    (h : o.Describes ms) (hvalues : ∀ m ∈ ms, IsValue m.value) (hobject : IsObject text ms')
    (hre : Member.Rearranged fields (fun _ => Eq) ms ms') (c : RenderConfig) :
    Reads (record fields c) text (o.apply c) :=
  (h.updates hvalues).reads_rearranged h.absent (fun _ => o.foldl_put) hre
    (fun _ _ _ heq _ _ _ _ hread => heq ▸ hread) hobject c

end Overrides

theorem fields_takeWhole : FieldsTakeWhole fields := by
  intro field hfield s text h
  simp only [fields, List.mem_cons, List.not_mem_nil, or_false] at hfield
  obtain rfl | rfl | rfl := hfield
  · exact of_takesWhole (natural_takesWhole _ h) s
  · exact of_takesWhole (bool_takesWhole h) s
  · exact of_takesWhole (bool_takesWhole h) s

end RenderConfig

namespace Demangle.Style

/-- The texts of a style: its name in any spelling, or an object of the name and null. -/
inductive IsText : List Char → Style → Prop
  | name {spelling : List Char} {style : Style} (h : IsString spelling style.name.toList) :
      IsText ('"' :: (spelling ++ ['"'])) style
  | object {gap : List Char} {m : Member} {style : Style} (hgap : Blank gap)
      (hname : m.name = style.name) (hvalue : m.value = "null".toList) :
      IsText (Member.object gap [m]) style

theorem IsText.reads {text : List Char} {style : Style} (h : IsText text style) :
    Reads (choice choices) text style := by
  have hlookup : choices.lookup style.name = some style := by cases style <;> rfl
  cases h with
  | name h => exact choice_reads_string h.spells hlookup
  | object hgap hname hvalue => exact choice_reads_object hgap hvalue (hname ▸ hlookup)

end Demangle.Style

namespace Config

/-- Settings that a document names. -/
structure Overrides where
  demangle : Option Bool := none
  demangleStyle : Option Demangle.Style := none
  images : Option ImageConfig.Overrides := none
  render : Option RenderConfig.Overrides := none

namespace Overrides

/-- Settings with some of them replaced. What is named of reading images or of reports replaces the
defaults of these. -/
def apply (o : Overrides) (c : Config) : Config where
  demangle := o.demangle.getD c.demangle
  demangleStyle := o.demangleStyle.getD c.demangleStyle
  images := (o.images.map (·.apply {})).getD c.images
  render := (o.render.map (·.apply {})).getD c.render

/-- Settings with the one of a name replaced. -/
def put (o : Overrides) (name : String) (c : Config) : Config :=
  if name = "demangle" then { c with demangle := o.demangle.getD c.demangle }
  else if name = "demangle_style" then
    { c with demangleStyle := o.demangleStyle.getD c.demangleStyle }
  else if name = "io" then { c with images := (o.images.map (·.apply {})).getD c.images }
  else if name = "render" then { c with render := (o.render.map (·.apply {})).getD c.render }
  else c

/-- Members name just these settings, each once, and so do the objects in them. -/
structure Describes (o : Overrides) (members : List Member) : Prop where
  nodup : (Member.named fields members).Nodup
  demangle : Says members "demangle" (fun text b => text = boolText b) o.demangle
  demangleStyle : Says members "demangle_style" Demangle.Style.IsText o.demangleStyle
  images : Says members "io" (fun text i => ∃ inner, IsObject text inner ∧ i.Describes inner)
    o.images
  render : Says members "render" (fun text r => ∃ inner, IsObject text inner ∧ r.Describes inner)
    o.render

theorem foldl_put (o : Overrides) {members : List Member}
    (habsent : ∀ name, (∀ m ∈ members, m.name ≠ name) → ∀ c, o.put name c = c)
    (c : Config) : members.foldl (fun c m => o.put m.name c) c = o.apply c := by
  have hdemangle := foldl_get_of_absent (·.demangle) "demangle" o.demangle
    (fun other s => by simp only [put]; split_ifs <;> rfl) (habsent _) c
  have hstyle := foldl_get_of_absent (·.demangleStyle) "demangle_style" o.demangleStyle
    (fun other s => by simp only [put]; split_ifs <;> simp_all) (habsent _) c
  have himages := foldl_get_of_absent (·.images) "io" (o.images.map (·.apply {}))
    (fun other s => by simp only [put]; split_ifs <;> simp_all) (habsent _) c
  have hrender := foldl_get_of_absent (·.render) "render" (o.render.map (·.apply {}))
    (fun other s => by simp only [put]; split_ifs <;> simp_all) (habsent _) c
  generalize members.foldl (fun c m => o.put m.name c) c = result
    at hdemangle hstyle himages hrender
  cases result
  simp_all [apply]

theorem put_of_unknown (o : Overrides) (name : String)
    (h : fields.find? (·.name = name) = none) (c : Config) : o.put name c = c := by
  have hname := name_ne_of_find? h
  simp only [fields, RecordField.of, List.forall_mem_cons] at hname
  obtain ⟨hdemangle, hstyle, himages, hrender, -⟩ := hname
  rw [put, if_neg hdemangle.symm, if_neg hstyle.symm, if_neg himages.symm, if_neg hrender.symm]

theorem Describes.absent {o : Overrides} {members : List Member} (h : o.Describes members)
    (name : String) (habsent : ∀ m ∈ members, m.name ≠ name) (c : Config) :
    o.put name c = c := by
  unfold put
  split_ifs with hname hname hname hname
  · rw [h.demangle.eq_none (hname ▸ habsent)]
    rfl
  · rw [h.demangleStyle.eq_none (hname ▸ habsent)]
    rfl
  · rw [h.images.eq_none (hname ▸ habsent)]
    rfl
  · rw [h.render.eq_none (hname ▸ habsent)]
    rfl
  · rfl

theorem Describes.updates {o : Overrides} {members : List Member} (h : o.Describes members)
    (hvalues : ∀ m ∈ members, IsValue m.value) : Updates fields o.put members where
  field m hm field hfind s := by
    have hname := name_of_find? hfind
    have hmem := List.mem_of_find?_eq_some hfind
    simp only [fields, List.mem_cons, List.not_mem_nil, or_false] at hmem
    obtain rfl | rfl | rfl | rfl := hmem
    · exact h.demangle.reads (fun _ _ => bool_reads_of_eq)
        (fun b hsaid s => by simp [put, hsaid]) hm hname s
    · exact h.demangleStyle.reads (fun _ _ htext => htext.reads)
        (fun style hsaid s => by simp [put, hsaid]) hm hname s
    · exact h.images.reads (fun _ i ⟨_, hobject, hi⟩ => hi.reads hobject {})
        (fun i hsaid s => by simp [put, hsaid]) hm hname s
    · exact h.render.reads (fun _ r ⟨_, hobject, hr⟩ => hr.reads hobject {})
        (fun r hsaid s => by simp [put, hsaid]) hm hname s
  other m hm _ := hvalues m hm
  unknown := o.put_of_unknown
  nodup := h.nodup

end Overrides

theorem fields_takeWhole : FieldsTakeWhole fields := by
  intro field hfield s text h
  simp only [fields, List.mem_cons, List.not_mem_nil, or_false] at hfield
  obtain rfl | rfl | rfl | rfl := hfield
  · exact of_takesWhole (bool_takesWhole h) s
  · exact of_takesWhole (choice_takesWhole h) s
  · exact of_takesWhole (record_takesWhole ImageConfig.fields_takeWhole h) s
  · exact of_takesWhole (record_takesWhole RenderConfig.fields_takeWhole h) s

/-- Whether two texts of one field name the same: they are equal, or objects in which the same
settings are named in any order. -/
inductive SameValue : String → List Char → List Char → Prop
  | refl {name : String} {text : List Char} : SameValue name text text
  | images {text text' : List Char} {inner inner' : List Member} (h : IsObject text inner)
      (h' : IsObject text' inner') {o : ImageConfig.Overrides} (ho : o.Describes inner)
      (hre : Member.Rearranged ImageConfig.fields (fun _ => Eq) inner inner') :
      SameValue "io" text text'
  | render {text text' : List Char} {inner inner' : List Member} (h : IsObject text inner)
      (h' : IsObject text' inner') {o : RenderConfig.Overrides} (ho : o.Describes inner)
      (hre : Member.Rearranged RenderConfig.fields (fun _ => Eq) inner inner') :
      SameValue "render" text text'

theorem SameValue.reads {name : String} {text text' : List Char} (h : SameValue name text text')
    {field : RecordField Config} (hfind : fields.find? (·.name = name) = some field) {s s' : Config}
    (hread : Reads (field.read s) text s') : Reads (field.read s) text' s' := by
  cases h with
  | refl => exact hread
  | images h h' ho hre =>
    cases hfind
    have hsame := ho.reads_rearranged h.isValue h' hre {}
    rw [hread.unique ((ho.reads h {}).of_field s)]
    exact hsame.of_field s
  | render h h' ho hre =>
    cases hfind
    have hsame := ho.reads_rearranged h.isValue h' hre {}
    rw [hread.unique ((ho.reads h {}).of_field s)]
    exact hsame.of_field s

/-- Whether members name no setting twice, and neither do the objects in them. -/
structure NamesOnce (members : List Member) : Prop where
  nodup : (Member.named fields members).Nodup
  images : ∀ m ∈ members, m.name = "io" → ∀ inner, IsObject m.value inner →
    (Member.named ImageConfig.fields inner).Nodup
  render : ∀ m ∈ members, m.name = "render" → ∀ inner, IsObject m.value inner →
    (Member.named RenderConfig.fields inner).Nodup

/-- What settings are read from a document that is an object with the given members. -/
structure ReadsNamed (text : String) (members : List Member) : Prop where
  /-- Settings that are named, once each and by a value of their type, are read, and the others are
  as they are by default. -/
  named : ∀ o : Overrides, o.Describes members → ofJson text = .ok (o.apply {})
  /-- It does not matter in which order they are named and what else there is. -/
  rearranged : ∀ o : Overrides, o.Describes members → ∀ text' members', IsDocument text' members' →
    Member.Rearranged fields SameValue members members' → ofJson text' = ofJson text
  /-- No setting may be named twice. -/
  twice : ¬ NamesOnce members → ∃ fault, ofJson text = .error fault

theorem namesOnce_of_ofJson {text : String} {members : List Member} (h : IsDocument text members)
    {c : Config} (hread : ofJson text = .ok c) : NamesOnce members := by
  obtain ⟨p, htext, hobject⟩ := h
  have haccepts := accepts_of_document htext hread
  obtain ⟨gap, hgap, hcore⟩ := hobject.text_eq
  rw [hcore] at haccepts
  have hwere := haccepts.wereRead fields_takeWhole hgap hobject.isValue
  refine ⟨hwere.nodup, fun m hm hname inner hinner => ?_, fun m hm hname inner hinner => ?_⟩
  · have hfind : fields.find? (·.name = m.name) =
        some (.of "io" (record ImageConfig.fields {}) fun c i => { c with images := i }) := by
      rw [hname]
      rfl
    exact hwere.nodup_of_record hm hfind ImageConfig.fields_takeWhole hinner
  · have hfind : fields.find? (·.name = m.name) =
        some (.of "render" (record RenderConfig.fields {}) fun c r => { c with render := r }) := by
      rw [hname]
      rfl
    exact hwere.nodup_of_record hm hfind RenderConfig.fields_takeWhole hinner

/-- What a document that is an object is read as depends on the settings that it names, and on
nothing else. -/
theorem ofJson_readsNamed (text : String) (members : List Member) (h : IsDocument text members) :
    ReadsNamed text members := by
  obtain ⟨p, htext, hobject⟩ := id h
  have hnamed : ∀ o : Overrides, o.Describes members → ofJson text = .ok (o.apply {}) := by
    intro o ho
    have hupdates := ho.updates hobject.isValue
    exact document_of_reads (hupdates.object_reads (o.foldl_put ho.absent {}) hobject) htext
  refine ⟨hnamed, ?_, fun htwice => ?_⟩
  · rintro o ho text' members' ⟨p', htext', hobject'⟩ hre
    have hupdates := ho.updates hobject.isValue
    have hreads := hupdates.reads_rearranged ho.absent (fun _ => o.foldl_put) hre
      (fun _ _ _ hsame _ hfind _ _ hread => hsame.reads hfind hread) hobject' {}
    rw [hnamed o ho]
    exact document_of_reads hreads htext'
  · cases hread : ofJson text with
    | ok c => exact absurd (namesOnce_of_ofJson h hread) htwice
    | error fault => exact ⟨fault, rfl⟩

/-- A member that is written without escapes. -/
def plainMember (name : String) (hname : Plain name) (value : List Char) : Member where
  before := [' ']
  spelling := name.toList
  name := name
  gap := []
  space := [' ']
  value := value
  after := []
  before_blank := by simp [Blank, isBlank]
  isString := isString_of_plain hname
  gap_blank := blank_nil
  space_blank := by simp [Blank, isBlank]
  after_blank := blank_nil

/-- A document that names one setting of its own and one of reports, and has a list in between. -/
theorem ofJson_twoNamed :
    let text := "\x7b \"demangle\": false, \"list\": [1,null], " ++
      "\"render\": \x7b \"show_source\": false\x7d\x7d"
    let inner := [plainMember "show_source" (by decide) (boolText false)]
    let members := [plainMember "demangle" (by decide) (boolText false),
      plainMember "list" (by decide) "[1,null]".toList,
      plainMember "render" (by decide) (Member.object [] inner)]
    IsDocument text members ∧ ReadsNamed text members ∧
      ofJson text = .ok { demangle := false, render := { showSource := false } } := by
  intro text inner members
  have hinner : IsObject (Member.object [] inner) inner := by
    refine ⟨⟨[], blank_nil, rfl⟩, ?_⟩
    simp only [inner, List.forall_mem_cons, List.not_mem_nil, IsEmpty.forall_iff, implies_true,
      and_true]
    exact .bool false
  have hlist : IsValue "[1,null]".toList := by
    have hone : IsWhole ['1'] := ⟨⟨List.cons_ne_nil _ _, by simp⟩, by simp⟩
    let items : List Padded :=
      [⟨[], ['1'], [], blank_nil, blank_nil⟩, ⟨[], "null".toList, [], blank_nil, blank_nil⟩]
    have hitems : ∀ item ∈ items, IsValue item.core := by
      simp only [items, List.forall_mem_cons, List.not_mem_nil, IsEmpty.forall_iff, implies_true,
        and_true]
      exact ⟨.number (.mk hone .missing .missing), .null⟩
    exact .list blank_nil hitems
  have hdocument : IsDocument text members := by
    refine ⟨⟨[], Member.object [] members, [], blank_nil, blank_nil⟩, by decide +kernel,
      ⟨[], blank_nil, rfl⟩, ?_⟩
    simp only [members, List.forall_mem_cons, List.not_mem_nil, IsEmpty.forall_iff, implies_true,
      and_true]
    exact ⟨.bool false, hlist, .object blank_nil hinner.isValue⟩
  have hreads := ofJson_readsNamed text members hdocument
  have hrender : RenderConfig.Overrides.Describes { showSource := some false } inner := by
    refine ⟨by decide, ?_, ?_, ?_⟩
    · exact ⟨by simp [inner, plainMember], by simp⟩
    · exact ⟨by simp [inner, plainMember], by simp [inner, plainMember]⟩
    · exact ⟨by simp [inner, plainMember], by simp⟩
  have hdescribes : Overrides.Describes
      { demangle := some false, render := some { showSource := some false } } members := by
    refine ⟨by decide, ?_, ?_, ?_, ?_⟩
    · exact ⟨by simp [members, plainMember], by simp [members, plainMember]⟩
    · exact ⟨by simp [members, plainMember], by simp⟩
    · exact ⟨by simp [members, plainMember], by simp⟩
    · refine ⟨fun m hm hname => ?_, by simp [members, plainMember]⟩
      simp only [members, List.mem_cons, List.not_mem_nil, or_false] at hm
      obtain rfl | rfl | rfl := hm
      · exact absurd hname (by decide)
      · exact absurd hname (by decide)
      · exact ⟨_, rfl, inner, hinner, hrender⟩
  exact ⟨hdocument, hreads, hreads.named _ hdescribes⟩

end Config

end Postmortem
