import Gateway.Cache.MessagePack
import Mathlib.Computability.Language

/-! The octets that a MessagePack value may be written in: every form of its head, and for a container
every form of its elements. The readers take exactly these from the front. -/
namespace Gateway.Cache.MessagePack

/-! ### The forms of a head -/

/-- A number below `limit` in the marker itself. -/
def small (base limit n : Nat) : Language UInt8 :=
  {form | n < limit ∧ form = [(base + n).toUInt8]}

/-- A marker of the table and what it announces, as many octets as the table has for it. -/
def marked (table : List (UInt8 × Nat)) (holds : Bytes → Prop) : Language UInt8 :=
  {form | ∃ marker octets, (marker, octets.length) ∈ table ∧ holds octets ∧ form = marker :: octets}

/-- A marker of the table and the number in big-endian digits. -/
def numbered (table : List (UInt8 × Nat)) (n : Nat) : Language UInt8 :=
  marked table fun digits => ofBigEndian digits = n

/-- A number from -32 to -1 in the marker itself. -/
def negative (i : Int) : Language UInt8 :=
  {form | ∃ n : Nat, (n : Int) - 32 = i ∧ form ∈ small 0xE0 32 n}

def unsignedMarkers : List (UInt8 × Nat) := [(0xCC, 1), (0xCD, 2), (0xCE, 4), (0xCF, 8)]

def signedMarkers : List (UInt8 × Nat) := [(0xD0, 1), (0xD1, 2), (0xD2, 4), (0xD3, 8)]

def floatMarkers : List (UInt8 × Nat) := [(0xCA, 4), (0xCB, 8)]

def octetMarkers : List (UInt8 × Nat) := [(0xC4, 1), (0xC5, 2), (0xC6, 4)]

def textMarkers : List (UInt8 × Nat) := [(0xD9, 1), (0xDA, 2), (0xDB, 4)]

def arrayMarkers : List (UInt8 × Nat) := [(0xDC, 2), (0xDD, 4)]

def mapMarkers : List (UInt8 × Nat) := [(0xDE, 2), (0xDF, 4)]

def extensionMarkers : List (UInt8 × Nat) := [(0xC7, 1), (0xC8, 2), (0xC9, 4)]

/-- The kind of an extension is one of the octets announced. -/
def fixedExtensionMarkers : List (UInt8 × Nat) :=
  [(0xD4, 2), (0xD5, 3), (0xD6, 5), (0xD7, 9), (0xD8, 17)]

namespace Head

def forms : Head → Language UInt8
  | .unsigned n => small 0 128 n + numbered unsignedMarkers n
  | .signed i => negative i +
      marked signedMarkers fun digits => signedOf digits.length (ofBigEndian digits) = i
  | .text content =>
    (small 0xA0 32 content.length + numbered textMarkers content.length) * {content}
  | .octets content => numbered octetMarkers content.length * {content}
  | .array n => small 0x90 16 n + numbered arrayMarkers n
  | .map n => small 0x80 16 n + numbered mapMarkers n
  | .extension kind content => marked fixedExtensionMarkers (· = kind :: content) +
      numbered extensionMarkers content.length * {kind :: content}
  | .nil => {[0xC0]}
  | .bool b => {[if b then 0xC3 else 0xC2]}
  | .float => marked floatMarkers fun _ => True

def elements? : Head → Option Nat
  | .array n => some n
  | .map n => some (2 * n)
  | _ => none

end Head

/-! ### Readers and the forms that they read -/

/-- The reader takes the forms of a value from the front, whatever follows, and nothing else. -/
structure Reads {α : Type} (read : Bytes → Option (α × Bytes)) (forms : α → Language UInt8) :
    Prop where
  complete : ∀ {a form}, form ∈ forms a → ∀ rest, read (form ++ rest) = some (a, rest)
  sound : ∀ {bs a rest}, read bs = some (a, rest) → ∃ form ∈ forms a, form ++ rest = bs

/-- A value that is read behind a key. -/
theorem Reads.sound_behind {α β : Type} {read : Bytes → Option (α × Bytes)}
    {forms : α → Language UInt8} (h : Reads read forms) (make : α → β) {keys : Language UInt8}
    {front bs rest : Bytes} {b : β} (hfront : front ∈ keys)
    (hread : (read bs).map (fun x => (make x.1, x.2)) = some (b, rest)) :
    ∃ a, b = make a ∧ ∃ form ∈ keys * forms a, form ++ rest = front ++ bs := by
  obtain ⟨⟨a, _⟩, hvalue, hsame⟩ := Option.map_eq_some_iff.mp hread
  obtain ⟨rfl, rfl⟩ := Prod.mk.inj hsame
  obtain ⟨back, hback, rfl⟩ := h.sound hvalue
  exact ⟨a, rfl, front ++ back, Language.append_mem_mul hfront hback, List.append_assoc _ _ _⟩

theorem take?_append {front : Bytes} {n : Nat} (h : front.length = n) (rest : Bytes) :
    take? n (front ++ rest) = some (front, rest) := by
  subst h
  simp [take?]

theorem take?_eq_some_iff {n : Nat} {bs content rest : Bytes} :
    take? n bs = some (content, rest) ↔ content.length = n ∧ content ++ rest = bs := by
  constructor
  · intro h
    obtain ⟨hlen, hsplit⟩ := Option.ite_none_right_eq_some.mp h
    obtain ⟨rfl, rfl⟩ := Prod.mk.inj (Option.some.inj hsplit)
    exact ⟨List.length_take_of_le hlen, List.take_append_drop n bs⟩
  · rintro ⟨hlen, rfl⟩
    exact take?_append hlen rest

theorem number?_eq_some_iff {width n : Nat} {bs rest : Bytes} :
    number? width bs = some (n, rest) ↔
      ∃ digits, digits.length = width ∧ ofBigEndian digits = n ∧ digits ++ rest = bs := by
  unfold number?
  rw [Option.map_eq_some_iff]
  constructor
  · rintro ⟨⟨digits, behind⟩, htake, hsame⟩
    obtain ⟨hvalue, rfl⟩ := Prod.mk.inj hsame
    obtain ⟨hlen, happend⟩ := take?_eq_some_iff.mp htake
    exact ⟨digits, hlen, hvalue, happend⟩
  · rintro ⟨digits, hlen, hvalue, happend⟩
    exact ⟨(digits, rest), take?_eq_some_iff.mpr ⟨hlen, happend⟩, Prod.ext hvalue rfl⟩

theorem number?_append {width : Nat} {digits : Bytes} (h : digits.length = width) (rest : Bytes) :
    number? width (digits ++ rest) = some (ofBigEndian digits, rest) :=
  number?_eq_some_iff.mpr ⟨digits, h, rfl, rfl⟩

theorem signed?_append {width : Nat} {digits : Bytes} (h : digits.length = width) (rest : Bytes) :
    signed? width (digits ++ rest) =
      some (.signed (signedOf digits.length (ofBigEndian digits)), rest) := by
  unfold signed?
  rw [number?_append h, Option.map_some, h]

theorem container?_append (make : Nat → Head) {width : Nat} {digits : Bytes}
    (h : digits.length = width) (rest : Bytes) :
    container? make width (digits ++ rest) = some (make (ofBigEndian digits), rest) := by
  unfold container?
  rw [number?_append h, Option.map_some]

theorem string?_append (make : Bytes → Head) {width : Nat} {digits content : Bytes}
    (h : digits.length = width) (hcontent : ofBigEndian digits = content.length) (rest : Bytes) :
    string? make width (digits ++ content ++ rest) = some (make content, rest) := by
  unfold string?
  rw [List.append_assoc, number?_append h, hcontent]
  simp [take?_append]

theorem extension?_append {n : Nat} {kind : UInt8} {content : Bytes} (h : content.length = n)
    (rest : Bytes) :
    extension? n (kind :: content ++ rest) = some (.extension kind content, rest) := by
  have hlen : (kind :: content).length = n + 1 := by rw [List.length_cons, h]
  unfold extension?
  rw [take?_append hlen]
  rfl

/-! ### Heads -/

theorem toNat_marker (base : Nat) {n : Nat} (h : base + n < 256) :
    (base + n).toUInt8.toNat = base + n := by
  simp only [Nat.toUInt8, UInt8.toNat_ofNat']
  omega

namespace Head

theorem read?_small_unsigned {n : Nat} {form : Bytes} (h : form ∈ small 0 128 n) (rest : Bytes) :
    read? (form ++ rest) = some (.unsigned n, rest) := by
  obtain ⟨hn, rfl⟩ := h
  have hm := toNat_marker 0 (n := n) (by omega)
  simp only [List.cons_append, List.nil_append, read?, hm]
  rw [if_pos (by omega), Nat.zero_add]

theorem read?_small_map {n : Nat} {form : Bytes} (h : form ∈ small 0x80 16 n) (rest : Bytes) :
    read? (form ++ rest) = some (.map n, rest) := by
  obtain ⟨hn, rfl⟩ := h
  have hm := toNat_marker 0x80 (n := n) (by omega)
  simp only [List.cons_append, List.nil_append, read?, hm]
  rw [if_neg (by omega), if_pos (by omega), Nat.add_sub_cancel_left]

theorem read?_small_array {n : Nat} {form : Bytes} (h : form ∈ small 0x90 16 n) (rest : Bytes) :
    read? (form ++ rest) = some (.array n, rest) := by
  obtain ⟨hn, rfl⟩ := h
  have hm := toNat_marker 0x90 (n := n) (by omega)
  simp only [List.cons_append, List.nil_append, read?, hm]
  rw [if_neg (by omega), if_neg (by omega), if_pos (by omega), Nat.add_sub_cancel_left]

theorem read?_small_text {content form : Bytes} (h : form ∈ small 0xA0 32 content.length)
    (rest : Bytes) : read? (form ++ content ++ rest) = some (.text content, rest) := by
  obtain ⟨hn, rfl⟩ := h
  have hm := toNat_marker 0xA0 (n := content.length) (by omega)
  have hlen : content.length = 0xA0 + content.length - 0xA0 := by omega
  simp only [List.cons_append, List.nil_append, read?, hm]
  rw [if_neg (by omega), if_neg (by omega), if_neg (by omega), if_pos (by omega), take?_append hlen]
  rfl

theorem read?_negative {i : Int} {form : Bytes} (h : form ∈ negative i) (rest : Bytes) :
    read? (form ++ rest) = some (.signed i, rest) := by
  obtain ⟨n, rfl, hn, rfl⟩ := h
  have hm := toNat_marker 0xE0 (n := n) (by omega)
  simp only [List.cons_append, List.nil_append, read?, hm]
  rw [if_neg (by omega), if_neg (by omega), if_neg (by omega), if_neg (by omega), if_pos (by omega)]
  have hvalue : ((0xE0 + n : Nat) : Int) - 256 = (n : Int) - 32 := by omega
  rw [hvalue]

/-- The markers of a table, one by one. -/
theorem read?_marked_unsigned {n : Nat} {form : Bytes} (h : form ∈ numbered unsignedMarkers n)
    (rest : Bytes) : read? (form ++ rest) = some (.unsigned n, rest) := by
  obtain ⟨marker, digits, hmarker, rfl, rfl⟩ := h
  simp only [unsignedMarkers, List.mem_cons, Prod.mk.injEq, List.not_mem_nil, or_false] at hmarker
  rcases hmarker with ⟨rfl, hlen⟩ | ⟨rfl, hlen⟩ | ⟨rfl, hlen⟩ | ⟨rfl, hlen⟩ <;>
    exact container?_append .unsigned hlen rest

theorem read?_marked_signed {i : Int} {form : Bytes} (h : form ∈ marked signedMarkers fun digits =>
    signedOf digits.length (ofBigEndian digits) = i) (rest : Bytes) :
    read? (form ++ rest) = some (.signed i, rest) := by
  obtain ⟨marker, digits, hmarker, rfl, rfl⟩ := h
  simp only [signedMarkers, List.mem_cons, Prod.mk.injEq, List.not_mem_nil, or_false] at hmarker
  rcases hmarker with ⟨rfl, hlen⟩ | ⟨rfl, hlen⟩ | ⟨rfl, hlen⟩ | ⟨rfl, hlen⟩ <;>
    exact signed?_append hlen rest

theorem read?_marked_text {content form : Bytes} (h : form ∈ numbered textMarkers content.length)
    (rest : Bytes) : read? (form ++ content ++ rest) = some (.text content, rest) := by
  obtain ⟨marker, digits, hmarker, hvalue, rfl⟩ := h
  simp only [textMarkers, List.mem_cons, Prod.mk.injEq, List.not_mem_nil, or_false] at hmarker
  rcases hmarker with ⟨rfl, hlen⟩ | ⟨rfl, hlen⟩ | ⟨rfl, hlen⟩ <;>
    exact string?_append .text hlen hvalue rest

theorem read?_marked_octets {content form : Bytes}
    (h : form ∈ numbered octetMarkers content.length) (rest : Bytes) :
    read? (form ++ content ++ rest) = some (.octets content, rest) := by
  obtain ⟨marker, digits, hmarker, hvalue, rfl⟩ := h
  simp only [octetMarkers, List.mem_cons, Prod.mk.injEq, List.not_mem_nil, or_false] at hmarker
  rcases hmarker with ⟨rfl, hlen⟩ | ⟨rfl, hlen⟩ | ⟨rfl, hlen⟩ <;>
    exact string?_append .octets hlen hvalue rest

theorem read?_marked_array {n : Nat} {form : Bytes} (h : form ∈ numbered arrayMarkers n)
    (rest : Bytes) : read? (form ++ rest) = some (.array n, rest) := by
  obtain ⟨marker, digits, hmarker, rfl, rfl⟩ := h
  simp only [arrayMarkers, List.mem_cons, Prod.mk.injEq, List.not_mem_nil, or_false] at hmarker
  rcases hmarker with ⟨rfl, hlen⟩ | ⟨rfl, hlen⟩ <;> exact container?_append .array hlen rest

theorem read?_marked_map {n : Nat} {form : Bytes} (h : form ∈ numbered mapMarkers n)
    (rest : Bytes) : read? (form ++ rest) = some (.map n, rest) := by
  obtain ⟨marker, digits, hmarker, rfl, rfl⟩ := h
  simp only [mapMarkers, List.mem_cons, Prod.mk.injEq, List.not_mem_nil, or_false] at hmarker
  rcases hmarker with ⟨rfl, hlen⟩ | ⟨rfl, hlen⟩ <;> exact container?_append .map hlen rest

theorem read?_fixed_extension {kind : UInt8} {content form : Bytes}
    (h : form ∈ marked fixedExtensionMarkers (· = kind :: content)) (rest : Bytes) :
    read? (form ++ rest) = some (.extension kind content, rest) := by
  obtain ⟨marker, octets, hmarker, rfl, rfl⟩ := h
  simp only [fixedExtensionMarkers, List.mem_cons, Prod.mk.injEq, List.not_mem_nil, or_false,
    List.length_cons, Nat.reduceEqDiff] at hmarker
  rcases hmarker with ⟨rfl, hlen⟩ | ⟨rfl, hlen⟩ | ⟨rfl, hlen⟩ | ⟨rfl, hlen⟩ | ⟨rfl, hlen⟩ <;>
    exact extension?_append hlen rest

theorem read?_marked_extension {kind : UInt8} {content form : Bytes}
    (h : form ∈ numbered extensionMarkers content.length) (rest : Bytes) :
    read? (form ++ kind :: content ++ rest) = some (.extension kind content, rest) := by
  obtain ⟨marker, digits, hmarker, hvalue, rfl⟩ := h
  have hread {width : Nat} (hlen : digits.length = width) :
      ((number? width (digits ++ kind :: content ++ rest)).bind fun x => extension? x.1 x.2) =
        some (.extension kind content, rest) := by
    rw [List.append_assoc, number?_append hlen, hvalue]
    exact extension?_append rfl rest
  simp only [extensionMarkers, List.mem_cons, Prod.mk.injEq, List.not_mem_nil, or_false] at hmarker
  rcases hmarker with ⟨rfl, hlen⟩ | ⟨rfl, hlen⟩ | ⟨rfl, hlen⟩ <;> exact hread hlen

theorem read?_marked_float {form : Bytes} (h : form ∈ marked floatMarkers fun _ => True)
    (rest : Bytes) : read? (form ++ rest) = some (.float, rest) := by
  obtain ⟨marker, octets, hmarker, -, rfl⟩ := h
  have hread {width : Nat} (hlen : octets.length = width) :
      ((take? width (octets ++ rest)).map fun x => (Head.float, x.2)) = some (.float, rest) := by
    rw [take?_append hlen]
    rfl
  simp only [floatMarkers, List.mem_cons, Prod.mk.injEq, List.not_mem_nil, or_false] at hmarker
  rcases hmarker with ⟨rfl, hlen⟩ | ⟨rfl, hlen⟩ <;> exact hread hlen

theorem read?_of_mem_forms {head : Head} {form : Bytes} (h : form ∈ head.forms) (rest : Bytes) :
    read? (form ++ rest) = some (head, rest) := by
  cases head with
  | unsigned n => exact h.elim (read?_small_unsigned · rest) (read?_marked_unsigned · rest)
  | signed i => exact h.elim (read?_negative · rest) (read?_marked_signed · rest)
  | text content =>
    obtain ⟨front, hfront, _, rfl, rfl⟩ := h
    exact hfront.elim (read?_small_text · rest) (read?_marked_text · rest)
  | octets content =>
    obtain ⟨front, hfront, _, rfl, rfl⟩ := h
    exact read?_marked_octets hfront rest
  | array n => exact h.elim (read?_small_array · rest) (read?_marked_array · rest)
  | map n => exact h.elim (read?_small_map · rest) (read?_marked_map · rest)
  | extension kind content =>
    rcases h with h | ⟨front, hfront, _, rfl, rfl⟩
    · exact read?_fixed_extension h rest
    · exact read?_marked_extension hfront rest
  | nil =>
    obtain rfl := h
    rfl
  | bool b =>
    obtain rfl := h
    cases b <;> rfl
  | float => exact read?_marked_float h rest

/-! Conversely what is read has one of the forms. The reader tells markers apart as numbers: `m` is the
one at hand. -/

section Sound
variable {marker : UInt8} {m width : Nat} {bs rest : Bytes} {head : Head}
  {table : List (UInt8 × Nat)}

theorem eq_toUInt8 (hm : marker.toNat = m) : marker = m.toUInt8 := by
  rw [← hm, Nat.toUInt8, UInt8.ofNat_toNat]

theorem mem_marked {holds : Bytes → Prop} {octets : Bytes} (hm : marker.toNat = m)
    (hmem : (m.toUInt8, octets.length) ∈ table) (hholds : holds octets) :
    marker :: octets ∈ marked table holds :=
  ⟨marker, octets, eq_toUInt8 hm ▸ hmem, hholds, rfl⟩

theorem mem_small {base limit : Nat} (hm : marker.toNat = m) (hbase : base ≤ m)
    (hlimit : m - base < limit) : [marker] ∈ small base limit (m - base) := by
  refine ⟨hlimit, ?_⟩
  rw [Nat.add_sub_cancel' hbase, eq_toUInt8 hm]

theorem mem_forms_unsigned {n : Nat} {form : Bytes} (h : form ∈ numbered unsignedMarkers n) :
    form ∈ (unsigned n).forms := .inr h

theorem mem_forms_array {n : Nat} {form : Bytes} (h : form ∈ numbered arrayMarkers n) :
    form ∈ (array n).forms := .inr h

theorem mem_forms_map {n : Nat} {form : Bytes} (h : form ∈ numbered mapMarkers n) :
    form ∈ (map n).forms := .inr h

theorem mem_forms_of_container? {make : Nat → Head} (hm : marker.toNat = m)
    (hmem : (m.toUInt8, width) ∈ table)
    (hforms : ∀ n, ∀ form ∈ numbered table n, form ∈ (make n).forms)
    (h : container? make width bs = some (head, rest)) :
    ∃ form ∈ head.forms, form ++ rest = marker :: bs := by
  obtain ⟨⟨n, _⟩, hnumber, hsame⟩ := Option.map_eq_some_iff.mp h
  obtain ⟨rfl, rfl⟩ := Prod.mk.inj hsame
  obtain ⟨digits, rfl, hvalue, rfl⟩ := number?_eq_some_iff.mp hnumber
  exact ⟨marker :: digits, hforms n _ (mem_marked hm hmem hvalue), rfl⟩

theorem mem_forms_of_signed? (hm : marker.toNat = m) (hmem : (m.toUInt8, width) ∈ signedMarkers)
    (h : signed? width bs = some (head, rest)) :
    ∃ form ∈ head.forms, form ++ rest = marker :: bs := by
  obtain ⟨⟨n, _⟩, hnumber, hsame⟩ := Option.map_eq_some_iff.mp h
  obtain ⟨rfl, rfl⟩ := Prod.mk.inj hsame
  obtain ⟨digits, rfl, rfl, rfl⟩ := number?_eq_some_iff.mp hnumber
  exact ⟨marker :: digits, .inr (mem_marked hm hmem rfl), rfl⟩

theorem mem_forms_octets {content form : Bytes} (h : form ∈ numbered octetMarkers content.length) :
    form ++ content ∈ (octets content).forms := Language.append_mem_mul h rfl

theorem mem_forms_text {content form : Bytes} (h : form ∈ numbered textMarkers content.length) :
    form ++ content ∈ (text content).forms := Language.append_mem_mul (.inr h) rfl

theorem mem_forms_of_string? {make : Bytes → Head} (hm : marker.toNat = m)
    (hmem : (m.toUInt8, width) ∈ table)
    (hforms : ∀ content, ∀ form ∈ numbered table content.length,
      form ++ content ∈ (make content).forms)
    (h : string? make width bs = some (head, rest)) :
    ∃ form ∈ head.forms, form ++ rest = marker :: bs := by
  obtain ⟨⟨n, behind⟩, hnumber, hthen⟩ := Option.bind_eq_some_iff.mp h
  obtain ⟨⟨content, _⟩, htake, hgives⟩ := Option.bind_eq_some_iff.mp hthen
  obtain ⟨rfl, rfl⟩ := Prod.mk.inj (Option.some.inj hgives)
  obtain ⟨digits, rfl, rfl, rfl⟩ := number?_eq_some_iff.mp hnumber
  obtain ⟨hlen, rfl⟩ := take?_eq_some_iff.mp htake
  have hfront : marker :: digits ∈ numbered table content.length := mem_marked hm hmem hlen.symm
  exact ⟨marker :: digits ++ content, hforms content _ hfront, List.append_assoc _ _ _⟩

theorem extension?_eq_some {n : Nat} (h : extension? n bs = some (head, rest)) :
    ∃ kind content, content.length = n ∧ head = .extension kind content ∧
      kind :: content ++ rest = bs := by
  obtain ⟨⟨octets, behind⟩, htake, hthen⟩ := Option.bind_eq_some_iff.mp h
  obtain ⟨hlen, rfl⟩ := take?_eq_some_iff.mp htake
  cases octets with
  | nil => cases hlen
  | cons kind content =>
    obtain ⟨rfl, rfl⟩ := Prod.mk.inj (Option.some.inj hthen)
    exact ⟨kind, content, Nat.succ.inj hlen, rfl, rfl⟩

theorem mem_forms_of_fixed_extension {n : Nat} (hm : marker.toNat = m)
    (hmem : (m.toUInt8, n + 1) ∈ fixedExtensionMarkers)
    (h : extension? n bs = some (head, rest)) :
    ∃ form ∈ head.forms, form ++ rest = marker :: bs := by
  obtain ⟨kind, content, rfl, rfl, rfl⟩ := extension?_eq_some h
  have hfront : marker :: kind :: content ∈
      marked fixedExtensionMarkers (· = kind :: content) := mem_marked hm hmem rfl
  exact ⟨marker :: kind :: content, .inl hfront, rfl⟩

theorem mem_forms_of_extension (hm : marker.toNat = m)
    (hmem : (m.toUInt8, width) ∈ extensionMarkers)
    (h : ((number? width bs).bind fun (n, rest) => extension? n rest) = some (head, rest)) :
    ∃ form ∈ head.forms, form ++ rest = marker :: bs := by
  obtain ⟨⟨n, behind⟩, hnumber, hthen⟩ := Option.bind_eq_some_iff.mp h
  obtain ⟨digits, rfl, rfl, rfl⟩ := number?_eq_some_iff.mp hnumber
  obtain ⟨kind, content, hlen, rfl, rfl⟩ := extension?_eq_some hthen
  have hfront : marker :: digits ∈ numbered extensionMarkers content.length :=
    mem_marked hm hmem hlen.symm
  refine ⟨marker :: digits ++ kind :: content, .inr ?_, List.append_assoc _ _ _⟩
  exact Language.append_mem_mul hfront rfl

theorem mem_forms_of_float (hm : marker.toNat = m) (hmem : (m.toUInt8, width) ∈ floatMarkers)
    (h : (take? width bs).map (fun (_, rest) => (Head.float, rest)) = some (head, rest)) :
    ∃ form ∈ head.forms, form ++ rest = marker :: bs := by
  obtain ⟨⟨octets, _⟩, htake, hsame⟩ := Option.map_eq_some_iff.mp h
  obtain ⟨rfl, rfl⟩ := Prod.mk.inj hsame
  obtain ⟨rfl, rfl⟩ := take?_eq_some_iff.mp htake
  exact ⟨marker :: octets, mem_marked hm hmem trivial, rfl⟩

theorem mem_forms_of_read? (h : read? bs = some (head, rest)) :
    ∃ form ∈ head.forms, form ++ rest = bs := by
  cases bs with
  | nil => cases h
  | cons marker bs =>
    simp only [read?] at h
    split_ifs at h with h7 hmap harray htext hnegative
    · obtain ⟨rfl, rfl⟩ := Prod.mk.inj (Option.some.inj h)
      have hfront : [marker] ∈ small 0 128 (marker.toNat - 0) :=
        mem_small rfl (Nat.zero_le _) h7
      exact ⟨[marker], .inl hfront, rfl⟩
    · obtain ⟨rfl, rfl⟩ := Prod.mk.inj (Option.some.inj h)
      exact ⟨[marker], .inl (mem_small rfl (by omega) (by omega)), rfl⟩
    · obtain ⟨rfl, rfl⟩ := Prod.mk.inj (Option.some.inj h)
      exact ⟨[marker], .inl (mem_small rfl (by omega) (by omega)), rfl⟩
    · obtain ⟨⟨content, _⟩, htake, hsame⟩ := Option.map_eq_some_iff.mp h
      obtain ⟨rfl, rfl⟩ := Prod.mk.inj hsame
      obtain ⟨hlen, rfl⟩ := take?_eq_some_iff.mp htake
      have hfront : [marker] ∈ small 0xA0 32 content.length :=
        hlen ▸ mem_small rfl (by omega) (by omega)
      exact ⟨[marker] ++ content, Language.append_mem_mul (.inl hfront) rfl, rfl⟩
    · obtain ⟨rfl, rfl⟩ := Prod.mk.inj (Option.some.inj h)
      have hmarker := UInt8.toNat_lt marker
      have hfront : [marker] ∈ small 0xE0 32 (marker.toNat - 0xE0) :=
        mem_small rfl hnegative (by omega)
      exact ⟨[marker], .inl ⟨marker.toNat - 0xE0, by omega, hfront⟩, rfl⟩
    · -- the families of markers from 0xC0 on, in their order
      split at h <;> rename_i hm
      iterate 3
        obtain ⟨rfl, rfl⟩ := Prod.mk.inj (Option.some.inj h)
        exact ⟨[marker], congrArg ([·]) (eq_toUInt8 hm), rfl⟩
      iterate 3
        exact mem_forms_of_string? hm (by decide) (fun _ _ => mem_forms_octets) h
      iterate 3
        exact mem_forms_of_extension hm (by decide) h
      iterate 2
        exact mem_forms_of_float hm (by decide) h
      iterate 4
        exact mem_forms_of_container? hm (by decide) (fun _ _ => mem_forms_unsigned) h
      iterate 4
        exact mem_forms_of_signed? hm (by decide) h
      iterate 5
        exact mem_forms_of_fixed_extension hm (by decide) h
      iterate 3
        exact mem_forms_of_string? hm (by decide) (fun _ _ => mem_forms_text) h
      iterate 2
        exact mem_forms_of_container? hm (by decide) (fun _ _ => mem_forms_array) h
      iterate 2
        exact mem_forms_of_container? hm (by decide) (fun _ _ => mem_forms_map) h
      cases h

end Sound

end Head

theorem reads_read? : Reads Head.read? Head.forms :=
  ⟨Head.read?_of_mem_forms, Head.mem_forms_of_read?⟩

/-! ### Values -/

/-- A number as an unsigned or a signed one. -/
def integerForms (n : Nat) : Language UInt8 := (Head.unsigned n).forms + (Head.signed n).forms

def integerFormsBelow (bound n : Nat) : Language UInt8 := {form | n < bound ∧ form ∈ integerForms n}

def octetsForms (content : Bytes) : Language UInt8 :=
  (Head.octets content).forms + (Head.text content).forms +
    (Head.array content.length).forms * (content.map fun b => integerForms b.toNat).prod

def scalarForms : Language UInt8 := {form | ∃ head : Head, head.elements? = none ∧ form ∈ head.forms}

def containerForms (element : Language UInt8) : Language UInt8 :=
  {form | ∃ (head : Head) (n : Nat), head.elements? = some n ∧ form ∈ head.forms * element ^ n}

/-- A value of any kind with containers nested at most `depth` deep. -/
def anyForms : (depth : Nat) → Language UInt8
  | 0 => scalarForms
  | depth + 1 => scalarForms + containerForms (anyForms depth)

theorem Reads.repeat? {α : Type} {read : Bytes → Option (α × Bytes)} {forms : α → Language UInt8}
    (h : Reads read forms) (n : Nat) :
    Reads (repeat? read n) fun as => {form | as.length = n ∧ form ∈ (as.map forms).prod} := by
  constructor
  · rintro as form ⟨rfl, hform⟩ rest
    induction as generalizing form with
    | nil =>
      obtain rfl := hform
      rfl
    | cons a as ih =>
      rw [List.map_cons, List.prod_cons] at hform
      obtain ⟨front, hfront, back, hback, rfl⟩ := hform
      simp [MessagePack.repeat?, h.complete hfront, ih hback]
  · intro bs as rest hread
    induction n generalizing bs as with
    | zero =>
      obtain ⟨rfl, rfl⟩ := Prod.mk.inj (Option.some.inj hread)
      exact ⟨[], ⟨rfl, rfl⟩, rfl⟩
    | succ n ih =>
      obtain ⟨⟨a, behind⟩, hfirst, hthen⟩ := Option.bind_eq_some_iff.mp hread
      obtain ⟨⟨others, _⟩, hothers, hgives⟩ := Option.bind_eq_some_iff.mp hthen
      obtain ⟨rfl, rfl⟩ := Prod.mk.inj (Option.some.inj hgives)
      obtain ⟨front, hfront, rfl⟩ := h.sound hfirst
      obtain ⟨back, ⟨rfl, hback⟩, rfl⟩ := ih hothers
      refine ⟨front ++ back, ⟨rfl, ?_⟩, List.append_assoc _ _ _⟩
      rw [List.map_cons, List.prod_cons]
      exact Language.append_mem_mul hfront hback

theorem reads_integer? (bound : Nat) :
    Reads (integer? bound) (integerFormsBelow bound) := by
  constructor
  · rintro n form ⟨hbound, hform | hform⟩ rest
    · simp [integer?, reads_read?.complete hform, hbound]
    · simp [integer?, reads_read?.complete hform, hbound]
  · intro bs n rest h
    obtain ⟨⟨head, behind⟩, hread, hthen⟩ := Option.bind_eq_some_iff.mp h
    obtain ⟨form, hform, happend⟩ := reads_read?.sound hread
    match head with
    | .unsigned m =>
      obtain ⟨hbound, hgives⟩ := Option.ite_none_right_eq_some.mp hthen
      obtain ⟨rfl, rfl⟩ := Prod.mk.inj (Option.some.inj hgives)
      exact ⟨form, ⟨hbound, .inl hform⟩, happend⟩
    | .signed (.ofNat m) =>
      obtain ⟨hbound, hgives⟩ := Option.ite_none_right_eq_some.mp hthen
      obtain ⟨rfl, rfl⟩ := Prod.mk.inj (Option.some.inj hgives)
      exact ⟨form, ⟨hbound, .inr hform⟩, happend⟩
    | .signed (.negSucc _) | .text _ | .octets _ | .array _ | .map _ | .extension _ _ | .nil
    | .bool _ | .float => cases hthen

theorem mem_prod_integerFormsBelow {bound : Nat} {ns : List Nat} {form : Bytes} :
    form ∈ (ns.map (integerFormsBelow bound)).prod ↔
      (∀ n ∈ ns, n < bound) ∧ form ∈ (ns.map integerForms).prod := by
  induction ns generalizing form with
  | nil => simp
  | cons n ns ih =>
    simp only [List.map_cons, List.prod_cons, Language.mem_mul, ih, List.forall_mem_cons]
    constructor
    · rintro ⟨front, ⟨hn, hfront⟩, back, ⟨hns, hback⟩, rfl⟩
      exact ⟨⟨hn, hns⟩, front, hfront, back, hback, rfl⟩
    · rintro ⟨⟨hn, hns⟩, front, hfront, back, hback, rfl⟩
      exact ⟨front, ⟨hn, hfront⟩, back, ⟨hns, hback⟩, rfl⟩

theorem reads_octets? : Reads octets? octetsForms := by
  have hnumbers (n : Nat) := (reads_integer? 256).repeat? n
  constructor
  · rintro content form ((hform | hform) | ⟨front, hfront, back, hback, rfl⟩) rest
    · simp [octets?, reads_read?.complete hform]
    · simp [octets?, reads_read?.complete hform]
    · have hnumbered : back ∈ ((content.map (·.toNat)).map (integerFormsBelow 256)).prod := by
        rw [mem_prod_integerFormsBelow]
        refine ⟨fun n hn => ?_, ?_⟩
        · obtain ⟨b, -, rfl⟩ := List.mem_map.mp hn
          exact UInt8.toNat_lt b
        · rw [List.map_map]
          exact hback
      have hrun := (hnumbers content.length).complete ⟨List.length_map _, hnumbered⟩ rest
      simp [octets?, reads_read?.complete hfront, hrun, Function.comp_def]
  · intro bs content rest h
    obtain ⟨⟨head, behind⟩, hread, hthen⟩ := Option.bind_eq_some_iff.mp h
    obtain ⟨front, hfront, rfl⟩ := reads_read?.sound hread
    match head with
    | .octets _ =>
      obtain ⟨rfl, rfl⟩ := Prod.mk.inj (Option.some.inj hthen)
      exact ⟨front, .inl (.inl hfront), rfl⟩
    | .text _ =>
      obtain ⟨rfl, rfl⟩ := Prod.mk.inj (Option.some.inj hthen)
      exact ⟨front, .inl (.inr hfront), rfl⟩
    | .array n =>
      obtain ⟨⟨ns, _⟩, hrun, hsame⟩ := Option.map_eq_some_iff.mp hthen
      obtain ⟨rfl, rfl⟩ := Prod.mk.inj hsame
      obtain ⟨back, ⟨rfl, hback⟩, rfl⟩ := (hnumbers n).sound hrun
      obtain ⟨hbound, hback⟩ := mem_prod_integerFormsBelow.mp hback
      have hsame : ns.map integerForms = (ns.map (·.toUInt8)).map fun b => integerForms b.toNat := by
        rw [List.map_map]
        refine List.map_congr_left fun n hn => ?_
        have hn256 := hbound n hn
        rw [Function.comp_apply, Nat.toUInt8, UInt8.toNat_ofNat', Nat.mod_eq_of_lt hn256]
      rw [hsame] at hback
      refine ⟨front ++ back, .inr (Language.append_mem_mul ?_ hback), List.append_assoc _ _ _⟩
      rwa [List.length_map]
    | .unsigned _ | .signed _ | .map _ | .extension _ _ | .nil | .bool _ | .float => cases hthen

/-! ### Sizes -/

theorem ofBigEndian_lt (digits : Bytes) : ofBigEndian digits < 256 ^ digits.length := by
  have hfrom : ∀ (bs : Bytes) (start width : Nat), start < 256 ^ width →
      bs.foldl (fun n b => n * 256 + b.toNat) start < 256 ^ (width + bs.length) := by
    intro bs
    induction bs with
    | nil => exact fun _ _ h => h
    | cons b bs ih =>
      intro start width h
      have hb := UInt8.toNat_lt b
      have hnext : start * 256 + b.toNat < 256 ^ (width + 1) := by
        rw [Nat.pow_succ]
        omega
      have hrest := ih _ _ hnext
      rwa [Nat.add_assoc, Nat.add_comm 1] at hrest
  have hall := hfrom digits 0 0 (by decide)
  rwa [Nat.zero_add] at hall

/-- A number that a marker announces has at most 32 bits where the table stops at four octets. -/
theorem lt_of_mem_numbered {table : List (UInt8 × Nat)} {n : Nat} {form : Bytes}
    (htable : ∀ entry ∈ table, entry.2 ≤ 4) (h : form ∈ numbered table n) : n < UInt32.size := by
  obtain ⟨marker, digits, hmarker, rfl, -⟩ := h
  calc ofBigEndian digits < 256 ^ digits.length := ofBigEndian_lt digits
    _ ≤ 256 ^ 4 := Nat.pow_le_pow_right (by decide) (htable _ hmarker)

theorem lt_of_mem_forms_array {n : Nat} {form : Bytes} (h : form ∈ (Head.array n).forms) :
    n < UInt32.size :=
  h.elim (fun hsmall => Nat.lt_trans hsmall.1 (by decide)) (lt_of_mem_numbered (by decide))

theorem length_lt_of_mem_forms_text {content form : Bytes} (h : form ∈ (Head.text content).forms) :
    content.length < UInt32.size := by
  obtain ⟨front, hfront, -⟩ := h
  exact hfront.elim (fun hsmall => Nat.lt_trans hsmall.1 (by decide))
    (lt_of_mem_numbered (by decide))

theorem length_lt_of_mem_forms_octets {content form : Bytes}
    (h : form ∈ (Head.octets content).forms) : content.length < UInt32.size := by
  obtain ⟨front, hfront, -⟩ := h
  exact lt_of_mem_numbered (by decide) hfront

theorem length_lt_of_mem_octetsForms {content form : Bytes} (h : form ∈ octetsForms content) :
    content.length < UInt32.size := by
  rcases h with (h | h) | ⟨front, hfront, -⟩
  · exact length_lt_of_mem_forms_octets h
  · exact length_lt_of_mem_forms_text h
  · exact lt_of_mem_forms_array hfront

/-- Each element of a run has one of its forms. -/
theorem exists_mem_forms_of_mem_prod {α : Type} {forms : α → Language UInt8} {as : List α}
    {form : Bytes} (h : form ∈ (as.map forms).prod) : ∀ a ∈ as, ∃ part, part ∈ forms a := by
  induction as generalizing form with
  | nil => simp
  | cons a as ih =>
    rw [List.map_cons, List.prod_cons] at h
    obtain ⟨front, hfront, back, hback, -⟩ := h
    intro b hb
    rcases List.mem_cons.mp hb with rfl | hb
    · exact ⟨front, hfront⟩
    · exact ih hback b hb

/-! ### Values that are passed over -/

def Skips (skip : Bytes → Option Bytes) (forms : Language UInt8) : Prop :=
  ∀ bs rest, skip bs = some rest ↔ ∃ form ∈ forms, form ++ rest = bs

theorem Skips.skipMany? {skip : Bytes → Option Bytes} {forms : Language UInt8}
    (h : Skips skip forms) (n : Nat) : Skips (skipMany? skip n) (forms ^ n) := by
  induction n with
  | zero =>
    intro bs rest
    simp [MessagePack.skipMany?, eq_comm]
  | succ n ih =>
    intro bs rest
    rw [MessagePack.skipMany?, Option.bind_eq_some_iff, pow_succ']
    constructor
    · rintro ⟨behind, hfirst, hothers⟩
      obtain ⟨front, hfront, rfl⟩ := (h _ _).mp hfirst
      obtain ⟨back, hback, rfl⟩ := (ih _ _).mp hothers
      exact ⟨front ++ back, Language.append_mem_mul hfront hback, List.append_assoc _ _ _⟩
    · rintro ⟨_, ⟨front, hfront, back, hback, rfl⟩, rfl⟩
      have hfirst : front ++ (back ++ rest) = (front ++ back) ++ rest :=
        (List.append_assoc _ _ _).symm
      exact ⟨back ++ rest, (h _ _).mpr ⟨front, hfront, hfirst⟩, (ih _ _).mpr ⟨back, hback, rfl⟩⟩

theorem skip?_zero (bs : Bytes) : skip? 0 bs = (Head.read? bs).bind fun (head, behind) =>
    match head.elements? with
    | none => some behind
    | some _ => none := by
  unfold skip?
  refine congrArg (Option.bind _) (funext fun ⟨head, behind⟩ => ?_)
  cases head <;> rfl

theorem skip?_succ (depth : Nat) (bs : Bytes) :
    skip? (depth + 1) bs = (Head.read? bs).bind fun (head, behind) =>
      match head.elements? with
      | none => some behind
      | some n => MessagePack.skipMany? (skip? depth) n behind := by
  rw [skip?]
  refine congrArg (Option.bind _) (funext fun ⟨head, behind⟩ => ?_)
  cases head <;> rfl

theorem skips_skip? (depth : Nat) : Skips (skip? depth) (anyForms depth) := by
  induction depth with
  | zero =>
    intro bs rest
    rw [skip?_zero, Option.bind_eq_some_iff]
    constructor
    · rintro ⟨⟨head, behind⟩, hread, hthen⟩
      obtain ⟨form, hform, happend⟩ := reads_read?.sound hread
      cases helements : head.elements? with
      | none =>
        simp only [helements, Option.some.injEq] at hthen
        exact ⟨form, ⟨head, helements, hform⟩, hthen ▸ happend⟩
      | some n => simp [helements] at hthen
    · rintro ⟨form, ⟨head, helements, hform⟩, rfl⟩
      exact ⟨(head, rest), reads_read?.complete hform rest, by simp [helements]⟩
  | succ depth ih =>
    intro bs rest
    rw [skip?_succ, Option.bind_eq_some_iff]
    constructor
    · rintro ⟨⟨head, behind⟩, hread, hthen⟩
      obtain ⟨form, hform, rfl⟩ := reads_read?.sound hread
      cases helements : head.elements? with
      | none =>
        simp only [helements, Option.some.injEq] at hthen
        exact ⟨form, .inl ⟨head, helements, hform⟩, hthen ▸ rfl⟩
      | some n =>
        simp only [helements] at hthen
        obtain ⟨back, hback, rfl⟩ := (ih.skipMany? n _ _).mp hthen
        have hwhole := Language.append_mem_mul hform hback
        exact ⟨form ++ back, .inr ⟨head, n, helements, hwhole⟩, List.append_assoc _ _ _⟩
    · rintro ⟨form, ⟨head, helements, hform⟩ | ⟨head, n, helements, hform⟩, rfl⟩
      · exact ⟨(head, rest), reads_read?.complete hform rest, by simp [helements]⟩
      · obtain ⟨front, hfront, back, hback, rfl⟩ := hform
        have hothers := (ih.skipMany? n (back ++ rest) rest).mpr ⟨back, hback, rfl⟩
        refine ⟨(head, back ++ rest), ?_, by simpa only [helements] using hothers⟩
        rw [List.append_assoc]
        exact reads_read?.complete hfront (back ++ rest)

end Gateway.Cache.MessagePack
