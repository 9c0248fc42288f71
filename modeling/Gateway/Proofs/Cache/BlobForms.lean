import Gateway.Proofs.Cache.RoundTrip
import Gateway.Proofs.Cache.ValueForms

/-! The shapes that a blob may have: its four parts in their order, or named in any order among fields
that are not known, each value in any of its forms. A blob is read when it begins with such a shape,
and then as the parts of that shape. -/
namespace Gateway.Cache.Stored

open MessagePack

/-! ### Shapes -/

def nameForms (name : Bytes) : Language UInt8 :=
  {form | (∃ cs, Text.Utf8.encodeChars cs = name) ∧
    form ∈ (Head.text name).forms + (Head.octets name).forms}

def pairForms (pair : Bytes × Bytes) : Language UInt8 :=
  (Head.array 2).forms * (nameForms pair.1 * octetsForms pair.2)

def pairsForms (pairs : List (Bytes × Bytes)) : Language UInt8 :=
  (Head.array pairs.length).forms * (pairs.map pairForms).prod

def statusForms (n : Nat) : Language UInt8 := integerFormsBelow UInt16.size n

def partNames : List Bytes :=
  [.ofLatin1 "status", .ofLatin1 "headers", .ofLatin1 "body", .ofLatin1 "variant_headers"]

def keyForms (position : Nat) (name : Bytes) : Language UInt8 :=
  (Head.unsigned position).forms + ((Head.text name).forms + (Head.octets name).forms)

/-- A key that is neither the position nor the name of a part. -/
def otherKeyForms : Language UInt8 :=
  {form | ∃ position name, partNames.length ≤ position ∧ name ∉ partNames ∧
    form ∈ keyForms position name}

def FieldName.forms : FieldName → Language UInt8
  | .status => keyForms 0 (.ofLatin1 "status")
  | .headers => keyForms 1 (.ofLatin1 "headers")
  | .body => keyForms 2 (.ofLatin1 "body")
  | .recorded => keyForms 3 (.ofLatin1 "variant_headers")
  | .unknown => otherKeyForms

/-- What an entry of a map adds to the parts. -/
inductive Entry where
  | status (n : Nat)
  | headers (pairs : List (Bytes × Bytes))
  | body (octets : Bytes)
  | recorded (pairs : List (Bytes × Bytes))
  | unknown

namespace Entry

def forms : Entry → Language UInt8
  | .status n => FieldName.status.forms * statusForms n
  | .headers pairs => FieldName.headers.forms * pairsForms pairs
  | .body octets => FieldName.body.forms * octetsForms octets
  | .recorded pairs => FieldName.recorded.forms * pairsForms pairs
  | .unknown => FieldName.unknown.forms * anyForms maxDepth

@[simp] def status? : Entry → Option Nat
  | .status n => some n
  | _ => none

@[simp] def headers? : Entry → Option (List (Bytes × Bytes))
  | .headers pairs => some pairs
  | _ => none

@[simp] def body? : Entry → Option Bytes
  | .body octets => some octets
  | _ => none

@[simp] def recorded? : Entry → Option (List (Bytes × Bytes))
  | .recorded pairs => some pairs
  | _ => none

theorem headers?_eq_some_iff {e : Entry} {pairs : List (Bytes × Bytes)} :
    e.headers? = some pairs ↔ e = .headers pairs := by
  cases e <;> simp

theorem body?_eq_some_iff {e : Entry} {octets : Bytes} :
    e.body? = some octets ↔ e = .body octets := by
  cases e <;> simp

theorem recorded?_eq_some_iff {e : Entry} {pairs : List (Bytes × Bytes)} :
    e.recorded? = some pairs ↔ e = .recorded pairs := by
  cases e <;> simp

end Entry

/-- The entries name each part once, in any order, and perhaps other fields. -/
structure Parts.NamedBy (p : Parts) (entries : List Entry) : Prop where
  status : entries.filterMap Entry.status? = [p.status]
  headers : entries.filterMap Entry.headers? = [p.headers]
  body : entries.filterMap Entry.body? = [p.body]
  recorded : entries.filterMap Entry.recorded? = [p.recorded]

def Parts.arrayForms (p : Parts) : Language UInt8 :=
  (Head.array 4).forms *
    (statusForms p.status * (pairsForms p.headers * (octetsForms p.body * pairsForms p.recorded)))

def Parts.mapForms (p : Parts) : Language UInt8 :=
  {form | ∃ entries, p.NamedBy entries ∧
    form ∈ (Head.map entries.length).forms * (entries.map Entry.forms).prod}

/-- The blob begins with a shape of these parts. -/
def Parts.ShapeOf (p : Parts) (blob : Bytes) : Prop :=
  ∃ form ∈ p.arrayForms + p.mapForms, form <+: blob

/-! ### Pairs -/

theorem utf8?_eq_some_iff {content name : Bytes} :
    utf8? content = some name ↔ content = name ∧ ∃ cs, Text.Utf8.encodeChars cs = name := by
  unfold utf8?
  rw [Option.map_eq_some_iff]
  constructor
  · rintro ⟨cs, hcs, rfl⟩
    exact ⟨rfl, cs, Text.Utf8.decode?_eq_some_iff.mp hcs⟩
  · rintro ⟨rfl, cs, hcs⟩
    exact ⟨cs, Text.Utf8.decode?_eq_some_iff.mpr hcs, rfl⟩

theorem reads_name? : Reads name? nameForms := by
  constructor
  · rintro name form ⟨htext, hform | hform⟩ rest
    · simp [name?, reads_read?.complete hform, utf8?_eq_some_iff.mpr ⟨rfl, htext⟩]
    · simp [name?, reads_read?.complete hform, utf8?_eq_some_iff.mpr ⟨rfl, htext⟩]
  · intro bs name rest h
    obtain ⟨⟨head, behind⟩, hread, hthen⟩ := Option.bind_eq_some_iff.mp h
    obtain ⟨form, hform, rfl⟩ := reads_read?.sound hread
    have hname {content : Bytes} (hthen : (utf8? content).map (·, behind) = some (name, rest)) :
        content = name ∧ (∃ cs, Text.Utf8.encodeChars cs = name) ∧ behind = rest := by
      obtain ⟨_, htext, hsame⟩ := Option.map_eq_some_iff.mp hthen
      obtain ⟨rfl, rfl⟩ := Prod.mk.inj hsame
      exact ⟨(utf8?_eq_some_iff.mp htext).1, (utf8?_eq_some_iff.mp htext).2, rfl⟩
    match head with
    | .text _ =>
      obtain ⟨rfl, htext, rfl⟩ := hname hthen
      exact ⟨form, ⟨htext, .inl hform⟩, rfl⟩
    | .octets _ =>
      obtain ⟨rfl, htext, rfl⟩ := hname hthen
      exact ⟨form, ⟨htext, .inr hform⟩, rfl⟩
    | .unsigned _ | .signed _ | .array _ | .map _ | .extension _ _ | .nil | .bool _ | .float =>
      cases hthen

theorem reads_pair? : Reads pair? pairForms := by
  constructor
  · rintro ⟨name, value⟩ form ⟨front, hfront, _, ⟨middle, hmiddle, back, hback, rfl⟩, rfl⟩ rest
    simp [pair?, reads_read?.complete hfront, reads_name?.complete hmiddle,
      reads_octets?.complete hback]
  · intro bs pair rest h
    obtain ⟨⟨head, behind⟩, hread, hthen⟩ := Option.bind_eq_some_iff.mp h
    obtain ⟨front, hfront, rfl⟩ := reads_read?.sound hread
    match head with
    | .array 2 =>
      obtain ⟨⟨name, _⟩, hname, hthen⟩ := Option.bind_eq_some_iff.mp hthen
      obtain ⟨⟨value, _⟩, hvalue, hthen⟩ := Option.bind_eq_some_iff.mp hthen
      obtain ⟨rfl, rfl⟩ := Prod.mk.inj (Option.some.inj hthen)
      obtain ⟨middle, hmiddle, rfl⟩ := reads_name?.sound hname
      obtain ⟨back, hback, rfl⟩ := reads_octets?.sound hvalue
      refine ⟨front ++ (middle ++ back), Language.append_mem_mul hfront ?_, by simp⟩
      exact Language.append_mem_mul hmiddle hback
    | .array 0 | .array 1 | .array (_ + 3) | .unsigned _ | .signed _ | .text _ | .octets _
    | .map _ | .extension _ _ | .nil | .bool _ | .float => cases hthen

theorem reads_pairs? : Reads pairs? pairsForms := by
  constructor
  · rintro pairs form ⟨front, hfront, back, hback, rfl⟩ rest
    have hrun := (reads_pair?.repeat? pairs.length).complete ⟨rfl, hback⟩ rest
    simp [pairs?, reads_read?.complete hfront, hrun]
  · intro bs pairs rest h
    obtain ⟨⟨head, behind⟩, hread, hthen⟩ := Option.bind_eq_some_iff.mp h
    obtain ⟨front, hfront, rfl⟩ := reads_read?.sound hread
    match head with
    | .array n =>
      obtain ⟨back, ⟨rfl, hback⟩, rfl⟩ := (reads_pair?.repeat? n).sound hthen
      exact ⟨front ++ back, Language.append_mem_mul hfront hback, List.append_assoc _ _ _⟩
    | .unsigned _ | .signed _ | .text _ | .octets _ | .map _ | .extension _ _ | .nil | .bool _
    | .float => cases hthen

/-- The parts in their order, without the head of their array. -/
theorem reads_inOrder? : Reads Parts.inOrder? fun p =>
    statusForms p.status * (pairsForms p.headers * (octetsForms p.body * pairsForms p.recorded)) := by
  have hstatus : Reads (integer? UInt16.size) statusForms := reads_integer? UInt16.size
  constructor
  · rintro p form ⟨a, ha, _, ⟨b, hb, _, ⟨c, hc, d, hd, rfl⟩, rfl⟩, rfl⟩ rest
    simp [Parts.inOrder?, hstatus.complete ha, reads_pairs?.complete hb, reads_octets?.complete hc,
      reads_pairs?.complete hd]
  · intro bs p rest h
    obtain ⟨⟨status, _⟩, hread, h⟩ := Option.bind_eq_some_iff.mp h
    obtain ⟨⟨headers, _⟩, hheaders, h⟩ := Option.bind_eq_some_iff.mp h
    obtain ⟨⟨body, _⟩, hbody, h⟩ := Option.bind_eq_some_iff.mp h
    obtain ⟨⟨recorded, _⟩, hrecorded, h⟩ := Option.bind_eq_some_iff.mp h
    obtain ⟨rfl, rfl⟩ := Prod.mk.inj (Option.some.inj h)
    obtain ⟨a, ha, rfl⟩ := hstatus.sound hread
    obtain ⟨b, hb, rfl⟩ := reads_pairs?.sound hheaders
    obtain ⟨c, hc, rfl⟩ := reads_octets?.sound hbody
    obtain ⟨d, hd, rfl⟩ := reads_pairs?.sound hrecorded
    refine ⟨a ++ (b ++ (c ++ d)), Language.append_mem_mul ha ?_, by simp⟩
    exact Language.append_mem_mul hb (Language.append_mem_mul hc hd)

/-! ### Entries -/

namespace FieldName

def ofPosition : Nat → FieldName
  | 0 => .status
  | 1 => .headers
  | 2 => .body
  | 3 => .recorded
  | _ => .unknown

def ofName (name : Bytes) : FieldName :=
  if name = .ofLatin1 "status" then .status
  else if name = .ofLatin1 "headers" then .headers
  else if name = .ofLatin1 "body" then .body
  else if name = .ofLatin1 "variant_headers" then .recorded
  else .unknown

theorem ofPosition_of_le {n : Nat} (h : partNames.length ≤ n) : ofPosition n = .unknown := by
  have hfour : 4 ≤ n := h
  unfold ofPosition
  split <;> first | rfl | omega

theorem ofName_of_not_mem {name : Bytes} (h : name ∉ partNames) : ofName name = .unknown := by
  simp only [partNames, List.mem_cons, List.not_mem_nil, or_false, not_or] at h
  obtain ⟨hstatus, hheaders, hbody, hrecorded⟩ := h
  unfold ofName
  rw [if_neg hstatus, if_neg hheaders, if_neg hbody, if_neg hrecorded]

theorem mem_forms_ofPosition {n : Nat} {form : Bytes} (h : form ∈ (Head.unsigned n).forms) :
    form ∈ (ofPosition n).forms := by
  match n with
  | 0 | 1 | 2 | 3 => exact .inl h
  | n + 4 => exact ⟨n + 4, [], Nat.le_add_left 4 n, by decide, .inl h⟩

theorem mem_forms_ofName {name form : Bytes}
    (h : form ∈ (Head.text name).forms + (Head.octets name).forms) :
    form ∈ (ofName name).forms := by
  unfold ofName
  split_ifs with hstatus hheaders hbody hrecorded
  · exact .inr (hstatus ▸ h)
  · exact .inr (hheaders ▸ h)
  · exact .inr (hbody ▸ h)
  · exact .inr (hrecorded ▸ h)
  · refine ⟨partNames.length, name, le_rfl, ?_, .inr h⟩
    simp [partNames, hstatus, hheaders, hbody, hrecorded]

/-- A key of a field is a position or a name that stands for it. -/
theorem exists_of_mem_forms {field : FieldName} {form : Bytes} (h : form ∈ field.forms) :
    (∃ n, ofPosition n = field ∧ form ∈ (Head.unsigned n).forms) ∨
      ∃ name, ofName name = field ∧
        form ∈ (Head.text name).forms + (Head.octets name).forms := by
  have hkey {position : Nat} {name : Bytes} (hposition : ofPosition position = field)
      (hname : ofName name = field) (h : form ∈ keyForms position name) :
      (∃ n, ofPosition n = field ∧ form ∈ (Head.unsigned n).forms) ∨
        ∃ name, ofName name = field ∧
          form ∈ (Head.text name).forms + (Head.octets name).forms :=
    h.imp (fun hform => ⟨position, hposition, hform⟩) (fun hform => ⟨name, hname, hform⟩)
  cases field with
  | status => exact hkey rfl rfl h
  | headers => exact hkey rfl rfl h
  | body => exact hkey rfl rfl h
  | recorded => exact hkey rfl rfl h
  | unknown =>
    obtain ⟨position, name, hposition, hname, h⟩ := h
    exact hkey (ofPosition_of_le hposition) (ofName_of_not_mem hname) h

end FieldName

theorem fieldName?_eq (bs : Bytes) : fieldName? bs = (Head.read? bs).bind fun (head, rest) =>
    match head with
    | .unsigned n => some (FieldName.ofPosition n, rest)
    | .text name | .octets name => some (FieldName.ofName name, rest)
    | _ => none := by
  unfold fieldName?
  refine congrArg (Option.bind _) (funext fun ⟨head, rest⟩ => ?_)
  match head with
  | .unsigned 0 | .unsigned 1 | .unsigned 2 | .unsigned 3 | .unsigned (_ + 4) | .text _
  | .octets _ | .signed _ | .array _ | .map _ | .extension _ _ | .nil | .bool _ | .float => rfl

theorem reads_fieldName? : Reads fieldName? FieldName.forms := by
  constructor
  · intro field form h rest
    rw [fieldName?_eq]
    rcases FieldName.exists_of_mem_forms h with ⟨n, rfl, hform⟩ | ⟨name, rfl, hform | hform⟩
    · rw [reads_read?.complete hform, Option.bind_some]
    · rw [reads_read?.complete hform, Option.bind_some]
    · rw [reads_read?.complete hform, Option.bind_some]
  · intro bs field rest h
    rw [fieldName?_eq] at h
    obtain ⟨⟨head, behind⟩, hread, hthen⟩ := Option.bind_eq_some_iff.mp h
    obtain ⟨form, hform, rfl⟩ := reads_read?.sound hread
    match head with
    | .unsigned _ =>
      obtain ⟨rfl, rfl⟩ := Prod.mk.inj (Option.some.inj hthen)
      exact ⟨form, FieldName.mem_forms_ofPosition hform, rfl⟩
    | .text _ =>
      obtain ⟨rfl, rfl⟩ := Prod.mk.inj (Option.some.inj hthen)
      exact ⟨form, FieldName.mem_forms_ofName (.inl hform), rfl⟩
    | .octets _ =>
      obtain ⟨rfl, rfl⟩ := Prod.mk.inj (Option.some.inj hthen)
      exact ⟨form, FieldName.mem_forms_ofName (.inr hform), rfl⟩
    | .signed _ | .array _ | .map _ | .extension _ _ | .nil | .bool _ | .float => cases hthen

namespace Entry

/-- One entry, whatever has been read before. -/
def read? (bs : Bytes) : Option (Entry × Bytes) := do
  match ← fieldName? bs with
  | (.status, rest) => (integer? UInt16.size rest).map fun (n, rest) => (.status n, rest)
  | (.headers, rest) => (pairs? rest).map fun (pairs, rest) => (.headers pairs, rest)
  | (.body, rest) => (octets? rest).map fun (octets, rest) => (.body octets, rest)
  | (.recorded, rest) => (pairs? rest).map fun (pairs, rest) => (.recorded pairs, rest)
  | (.unknown, rest) => (skip? maxDepth rest).map fun rest => (.unknown, rest)

theorem reads_read? : Reads read? forms := by
  have hstatus : Reads (integer? UInt16.size) statusForms := reads_integer? UInt16.size
  constructor
  · intro entry form h rest
    cases entry with
    | status n =>
      obtain ⟨front, hfront, back, hback, rfl⟩ := h
      simp [read?, reads_fieldName?.complete hfront, hstatus.complete hback]
    | headers pairs =>
      obtain ⟨front, hfront, back, hback, rfl⟩ := h
      simp [read?, reads_fieldName?.complete hfront, reads_pairs?.complete hback]
    | body octets =>
      obtain ⟨front, hfront, back, hback, rfl⟩ := h
      simp [read?, reads_fieldName?.complete hfront, reads_octets?.complete hback]
    | recorded pairs =>
      obtain ⟨front, hfront, back, hback, rfl⟩ := h
      simp [read?, reads_fieldName?.complete hfront, reads_pairs?.complete hback]
    | unknown =>
      obtain ⟨front, hfront, back, hback, rfl⟩ := h
      have hskip := (skips_skip? maxDepth (back ++ rest) rest).mpr ⟨back, hback, rfl⟩
      simp [read?, reads_fieldName?.complete hfront, hskip]
  · intro bs entry rest h
    obtain ⟨⟨field, behind⟩, hfield, hthen⟩ := Option.bind_eq_some_iff.mp h
    obtain ⟨front, hfront, rfl⟩ := reads_fieldName?.sound hfield
    cases field with
    | status =>
      obtain ⟨n, rfl, hform⟩ := hstatus.sound_behind Entry.status hfront hthen
      exact hform
    | headers =>
      obtain ⟨pairs, rfl, hform⟩ := reads_pairs?.sound_behind Entry.headers hfront hthen
      exact hform
    | body =>
      obtain ⟨octets, rfl, hform⟩ := reads_octets?.sound_behind Entry.body hfront hthen
      exact hform
    | recorded =>
      obtain ⟨pairs, rfl, hform⟩ := reads_pairs?.sound_behind Entry.recorded hfront hthen
      exact hform
    | unknown =>
      obtain ⟨_, hskip, hsame⟩ := Option.map_eq_some_iff.mp hthen
      obtain ⟨rfl, rfl⟩ := Prod.mk.inj hsame
      obtain ⟨back, hback, rfl⟩ := (skips_skip? maxDepth _ _).mp hskip
      exact ⟨front ++ back, Language.append_mem_mul hfront hback, List.append_assoc _ _ _⟩

end Entry

/-- The parts with those of one more entry; none may come twice. -/
def PartialParts.add? (p : PartialParts) : Entry → Option PartialParts
  | .status n => if p.status.isSome then none else some { p with status := some n }
  | .headers pairs => if p.headers.isSome then none else some { p with headers := some pairs }
  | .body octets => if p.body.isSome then none else some { p with body := some octets }
  | .recorded pairs => if p.recorded.isSome then none else some { p with recorded := some pairs }
  | .unknown => some p

theorem field?_eq (p : PartialParts) (bs : Bytes) :
    field? p bs = (Entry.read? bs).bind fun (entry, rest) => (p.add? entry).map (·, rest) := by
  obtain ⟨status, headers, body, recorded⟩ := p
  unfold field? Entry.read?
  cases fieldName? bs with
  | none => rfl
  | some key =>
    obtain ⟨field, rest⟩ := key
    simp only [Option.bind_eq_bind, Option.bind_some]
    cases field with
    | status =>
      dsimp only
      cases integer? UInt16.size rest <;> cases status <;> rfl
    | headers =>
      dsimp only
      cases pairs? rest <;> cases headers <;> rfl
    | body =>
      dsimp only
      cases octets? rest <;> cases body <;> rfl
    | recorded =>
      dsimp only
      cases pairs? rest <;> cases recorded <;> rfl
    | unknown =>
      dsimp only
      cases skip? maxDepth rest <;> rfl

theorem entries?_eq (n : Nat) (p : PartialParts) (bs : Bytes) :
    entries? n p bs =
      (repeat? Entry.read? n bs).bind fun (entries, _) => entries.foldlM PartialParts.add? p := by
  induction n generalizing p bs with
  | zero => rfl
  | succ n ih =>
    simp only [entries?, repeat?, field?_eq, Option.bind_eq_bind, Option.bind_assoc]
    refine Option.bind_congr fun first _ => ?_
    obtain ⟨entry, rest⟩ := first
    cases hadd : p.add? entry with
    | none => simp [hadd]
    | some q => simp [hadd, ih]

/-- Entries can all be added exactly when none brings a part that was there. -/
theorem foldlM_add?_eq_some_iff {p q : PartialParts} {entries : List Entry} :
    entries.foldlM PartialParts.add? p = some q ↔
      p.status.toList ++ entries.filterMap Entry.status? = q.status.toList ∧
      p.headers.toList ++ entries.filterMap Entry.headers? = q.headers.toList ∧
      p.body.toList ++ entries.filterMap Entry.body? = q.body.toList ∧
      p.recorded.toList ++ entries.filterMap Entry.recorded? = q.recorded.toList := by
  have htoList {α : Type} {a b : Option α} : a.toList = b.toList ↔ a = b := by
    cases a <;> cases b <;> simp
  have htwo {α : Type} (a b : α) (as : List α) (c : Option α) : ¬ a :: b :: as = c.toList := by
    cases c <;> simp
  induction entries generalizing p with
  | nil =>
    obtain ⟨status, headers, body, recorded⟩ := p
    obtain ⟨_, _, _, _⟩ := q
    simp [htoList]
  | cons entry entries ih =>
    obtain ⟨status, headers, body, recorded⟩ := p
    rw [List.foldlM_cons]
    cases entry with
    | status n => cases status <;> simp [PartialParts.add?, List.filterMap_cons, ih, htwo]
    | headers pairs => cases headers <;> simp [PartialParts.add?, List.filterMap_cons, ih, htwo]
    | body octets => cases body <;> simp [PartialParts.add?, List.filterMap_cons, ih, htwo]
    | recorded pairs => cases recorded <;> simp [PartialParts.add?, List.filterMap_cons, ih, htwo]
    | unknown => simp [PartialParts.add?, List.filterMap_cons, ih]

/-! ### Blobs -/

def PartialParts.complete? : PartialParts → Option Parts
  | ⟨some status, some headers, some body, some recorded⟩ => some ⟨status, headers, body, recorded⟩
  | _ => none

theorem PartialParts.complete?_eq_some_iff {q : PartialParts} {p : Parts} :
    q.complete? = some p ↔
      q = ⟨some p.status, some p.headers, some p.body, some p.recorded⟩ := by
  obtain ⟨_ | status, _ | headers, _ | body, _ | recorded⟩ := q <;> cases p <;> simp [complete?]

theorem Parts.read?_eq (bs : Bytes) : Parts.read? bs = (Head.read? bs).bind fun (head, rest) =>
    match head with
    | .array 4 => (Parts.inOrder? rest).map Prod.fst
    | .map n => (entries? n ⟨none, none, none, none⟩ rest).bind PartialParts.complete?
    | _ => none := by
  unfold Parts.read?
  refine congrArg (Option.bind _) (funext fun ⟨head, rest⟩ => ?_)
  match head with
  | .array 4 =>
    simp only [Parts.inOrder?, Option.bind_eq_bind, Option.map_bind, Function.comp_def,
      Option.map_some]
  | .map n =>
    refine congrArg (Option.bind _) (funext fun q => ?_)
    obtain ⟨_ | _, _ | _, _ | _, _ | _⟩ := q <;> rfl
  | .array 0 | .array 1 | .array 2 | .array 3 | .array (_ + 5) | .unsigned _ | .text _
  | .octets _ | .signed _ | .extension _ _ | .nil | .bool _ | .float => rfl

/-- The entries that can all be added to no parts at all, and then all parts are there. -/
theorem Parts.namedBy_iff {p : Parts} {entries : List Entry} : p.NamedBy entries ↔
    entries.foldlM PartialParts.add? ⟨none, none, none, none⟩ =
      some ⟨some p.status, some p.headers, some p.body, some p.recorded⟩ := by
  rw [foldlM_add?_eq_some_iff]
  exact ⟨fun ⟨hstatus, hheaders, hbody, hrecorded⟩ => ⟨hstatus, hheaders, hbody, hrecorded⟩,
    fun ⟨hstatus, hheaders, hbody, hrecorded⟩ => ⟨hstatus, hheaders, hbody, hrecorded⟩⟩

theorem entries?_bind_complete?_eq_some_iff {n : Nat} {bs : Bytes} {p : Parts} :
    (entries? n ⟨none, none, none, none⟩ bs).bind PartialParts.complete? = some p ↔
      ∃ entries, p.NamedBy entries ∧ entries.length = n ∧
        ∃ form ∈ (entries.map Entry.forms).prod, form <+: bs := by
  have hrun := Entry.reads_read?.repeat? n
  rw [entries?_eq, Option.bind_assoc, Option.bind_eq_some_iff]
  constructor
  · rintro ⟨⟨entries, rest⟩, hread, hthen⟩
    obtain ⟨q, hadded, hcomplete⟩ := Option.bind_eq_some_iff.mp hthen
    obtain rfl := PartialParts.complete?_eq_some_iff.mp hcomplete
    obtain ⟨form, ⟨hlen, hform⟩, happend⟩ := hrun.sound hread
    exact ⟨entries, Parts.namedBy_iff.mpr hadded, hlen, form, hform, rest, happend⟩
  · rintro ⟨entries, hnamed, hlen, form, hform, rest, rfl⟩
    refine ⟨(entries, rest), hrun.complete ⟨hlen, hform⟩ rest, ?_⟩
    exact congrArg (Option.bind · PartialParts.complete?) (Parts.namedBy_iff.mp hnamed)

/-- A blob is read as the parts whose shape it begins with. -/
theorem Parts.read?_eq_some_iff {blob : Bytes} {p : Parts} :
    Parts.read? blob = some p ↔ p.ShapeOf blob := by
  rw [Parts.read?_eq, Option.bind_eq_some_iff]
  constructor
  · rintro ⟨⟨head, behind⟩, hread, hthen⟩
    obtain ⟨front, hfront, rfl⟩ := MessagePack.reads_read?.sound hread
    match head with
    | .array 4 =>
      obtain ⟨⟨_, rest⟩, horder, rfl⟩ := Option.map_eq_some_iff.mp hthen
      obtain ⟨back, hback, rfl⟩ := reads_inOrder?.sound horder
      refine ⟨front ++ back, .inl (Language.append_mem_mul hfront hback), rest, ?_⟩
      exact List.append_assoc _ _ _
    | .map n =>
      obtain ⟨entries, hnamed, rfl, back, hback, rest, rfl⟩ :=
        entries?_bind_complete?_eq_some_iff.mp hthen
      have hwhole := Language.append_mem_mul hfront hback
      exact ⟨front ++ back, .inr ⟨entries, hnamed, hwhole⟩, rest, List.append_assoc _ _ _⟩
    | .array 0 | .array 1 | .array 2 | .array 3 | .array (_ + 5) | .unsigned _ | .text _
    | .octets _ | .signed _ | .extension _ _ | .nil | .bool _ | .float => cases hthen
  · rintro ⟨form, hform | ⟨entries, hnamed, hform⟩, rest, rfl⟩
    · obtain ⟨front, hfront, back, hback, rfl⟩ := hform
      refine ⟨(.array 4, back ++ rest), ?_, ?_⟩
      · rw [List.append_assoc]
        exact MessagePack.reads_read?.complete hfront (back ++ rest)
      · exact congrArg (Option.map Prod.fst) (reads_inOrder?.complete hback rest)
    · obtain ⟨front, hfront, back, hback, rfl⟩ := hform
      refine ⟨(.map entries.length, back ++ rest), ?_, ?_⟩
      · rw [List.append_assoc]
        exact MessagePack.reads_read?.complete hfront (back ++ rest)
      · exact entries?_bind_complete?_eq_some_iff.mpr
          ⟨entries, hnamed, rfl, back, hback, rest, rfl⟩

/-! ### Sizes -/

/-- The number of pairs and the lengths of their values have 32 bits. -/
def PairsFit (pairs : List (Bytes × Bytes)) : Prop :=
  pairs.length < UInt32.size ∧ ∀ pair ∈ pairs, pair.2.length < UInt32.size

theorem pairsFit_of_mem_pairsForms {pairs : List (Bytes × Bytes)} {form : Bytes}
    (h : form ∈ pairsForms pairs) : PairsFit pairs := by
  obtain ⟨front, hfront, back, hback, -⟩ := h
  refine ⟨lt_of_mem_forms_array hfront, fun pair hpair => ?_⟩
  obtain ⟨_, head, -, _, ⟨name, -, value, hvalue, -⟩, -⟩ :=
    exists_mem_forms_of_mem_prod hback pair hpair
  exact length_lt_of_mem_octetsForms hvalue

/-- The entries that the parts come from. -/
theorem Parts.NamedBy.mem {p : Parts} {entries : List Entry} (h : p.NamedBy entries) :
    .headers p.headers ∈ entries ∧ .body p.body ∈ entries ∧ .recorded p.recorded ∈ entries := by
  have hmem {α : Type} {part? : Entry → Option α} {a : α} (h : entries.filterMap part? = [a]) :
      ∃ entry ∈ entries, part? entry = some a := by
    rw [← List.mem_filterMap, h]
    exact List.mem_singleton_self a
  obtain ⟨_, hheaders, hsameHeaders⟩ := hmem h.headers
  obtain ⟨_, hbody, hsameBody⟩ := hmem h.body
  obtain ⟨_, hrecorded, hsameRecorded⟩ := hmem h.recorded
  obtain rfl := Entry.headers?_eq_some_iff.mp hsameHeaders
  obtain rfl := Entry.body?_eq_some_iff.mp hsameBody
  obtain rfl := Entry.recorded?_eq_some_iff.mp hsameRecorded
  exact ⟨hheaders, hbody, hrecorded⟩

/-- What a blob holds fits the forms that it is written in again. -/
theorem Parts.ShapeOf.fits {p : Parts} {blob : Bytes} (h : p.ShapeOf blob) :
    PairsFit p.headers ∧ p.body.length < UInt32.size ∧ PairsFit p.recorded := by
  rcases h with ⟨form, harray | ⟨entries, hnamed, hmap⟩, -⟩
  · obtain ⟨_, -, _, ⟨_, -, _, ⟨_, hheaders, _, ⟨_, hbody, _, hrecorded, -⟩, -⟩, -⟩, -⟩ := harray
    exact ⟨pairsFit_of_mem_pairsForms hheaders, length_lt_of_mem_octetsForms hbody,
      pairsFit_of_mem_pairsForms hrecorded⟩
  · obtain ⟨_, -, _, hentries, -⟩ := hmap
    have hforms := exists_mem_forms_of_mem_prod hentries
    obtain ⟨hheaders, hbody, hrecorded⟩ := hnamed.mem
    obtain ⟨_, _, -, _, hheaders, -⟩ := hforms _ hheaders
    obtain ⟨_, _, -, _, hbody, -⟩ := hforms _ hbody
    obtain ⟨_, _, -, _, hrecorded, -⟩ := hforms _ hrecorded
    exact ⟨pairsFit_of_mem_pairsForms hheaders, length_lt_of_mem_octetsForms hbody,
      pairsFit_of_mem_pairsForms hrecorded⟩

end Gateway.Cache.Stored
