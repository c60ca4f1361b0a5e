import TightbeamExt.Base.Registers
import TightbeamExt.Ws.Locality

/-!
# The algebra of splices

Where a splice puts a field depends on what is there, and each write moves what is behind it.
Still the order in which fields are installed does not show: a field written twice is as if
written once, and writes of different fields can change places.  The octets of a frame depend
on the last value of each field and on the last body.

## Main definitions

* `place`, `placeCompactness` — the splices as functions on components.
* `Target`, `Write` — the fields, and one write of a `WireFrame`.
* `WireFrame.Headed` — the components every frame begins with.
* `Splice.writes` — the writes of an operation.
* `Splice.runAll` — operations one after the other, on octets.

## Main results

* `setTagged_eq_place`, `apply_eq` — what a write does, once its component is encoded.
* `install_absorb`, `install_comm` — **the last write wins, and writes of different fields
  commute**.
* `finish_of_runAll` — operations on octets are their writes on one `WireFrame`.
* `splice_algebra` — the laws for `set_tagged`, for a `WireFrame` and for octets.
-/

namespace TightbeamExt
namespace Ws

open Asn (Octets)
open Transition (runs runs_cons runs_append Independent lastWrite)

variable {L : Library}

/-! ### Tagged fields -/

/-- Put a `[number]` field before the first context field at or past the number, or in place of
the field that holds it. -/
def place (number : ℕ) (field : Any) : List Any → List Any
  | [] => [field]
  | c :: cs =>
      if atOrPast number c then
        if c.tag = .contextSpecific true number then field :: cs else field :: c :: cs
      else c :: place number field cs

theorem place_cons_of_not {number : ℕ} {field c : Any} {cs : List Any}
    (h : atOrPast number c = false) : place number field (c :: cs) = c :: place number field cs := by
  simp [place, h]

theorem place_cons_of_none {number : ℕ} {field c : Any} {cs : List Any}
    (h : contextNumber c = none) : place number field (c :: cs) = c :: place number field cs :=
  place_cons_of_not (atOrPast_of_none h)

theorem atOrPast_of_tag {number held : ℕ} {constructed : Bool} {c : Any}
    (h : c.tag = .contextSpecific constructed held) : atOrPast number c = decide (number ≤ held) := by
  simp [atOrPast, h]

/-- `set_tagged` encodes the field and puts it in its place. -/
theorem setTagged_eq_place (components : List Any) (number : ℕ) (der : Octets) :
    setTagged L components number der =
      (L.newAny (.contextSpecific true number) der).map (place number · components) := by
  unfold setTagged
  cases L.newAny (.contextSpecific true number) der with
  | error e => rfl
  | ok field =>
    simp only [bind, Except.bind, Except.map]
    induction components with
    | nil => rfl
    | cons c cs ih =>
      by_cases hc : atOrPast number c = true
      · by_cases htag : c.tag = .contextSpecific true number
        · simp [place, List.findIdx_cons, hc, htag]
        · simp [place, List.findIdx_cons, hc, htag]
      · have hnot : atOrPast number c = false := by simpa using hc
        rw [place_cons_of_not hnot, List.findIdx_cons, hnot]
        simp only [cond_false, List.getElem?_cons_succ, List.set_cons_succ, List.insertIdx_succ_cons]
        split at ih
        · split at ih
          · next htag => rw [if_pos htag, ← Except.ok.inj ih]
          · next htag => rw [if_neg htag, ← Except.ok.inj ih]
        · rw [← Except.ok.inj ih]

/-- The second write of a number replaces the first. -/
theorem place_absorb {number : ℕ} {field : Any} (second : Any) {cs : List Any}
    (hfield : field.tag = .contextSpecific true number) :
    place number second (place number field cs) = place number second cs := by
  have hat : atOrPast number field = true := by simp [atOrPast_of_tag hfield]
  induction cs with
  | nil => simp [place, hat, hfield]
  | cons c cs ih =>
    by_cases hc : atOrPast number c = true
    · by_cases htag : c.tag = .contextSpecific true number
      · simp [place, hc, htag, hat, hfield]
      · simp [place, hc, htag, hat, hfield]
    · have hnot : atOrPast number c = false := by simpa using hc
      rw [place_cons_of_not hnot, place_cons_of_not hnot, place_cons_of_not hnot, ih]

/-- Fields with different numbers, the lower one first. -/
theorem place_comm_of_lt {low high : ℕ} {f g : Any} {cs : List Any} (hlt : low < high)
    (hf : f.tag = .contextSpecific true low) (hg : g.tag = .contextSpecific true high) :
    place low f (place high g cs) = place high g (place low f cs) := by
  have hgat : atOrPast low g = true := by simp [atOrPast_of_tag hg, hlt.le]
  have hfnot : atOrPast high f = false := by simp [atOrPast_of_tag hf, hlt]
  have hgtag : g.tag ≠ .contextSpecific true low := by
    rw [hg]
    intro heq
    cases heq
    exact lt_irrefl _ hlt
  induction cs with
  | nil => simp [place, hgat, hfnot, hgtag]
  | cons c cs ih =>
    by_cases hhigh : atOrPast high c = true
    · -- both go before `c`, or the higher one in its place
      have hlow : atOrPast low c = true := by
        unfold atOrPast at hhigh ⊢
        split at hhigh
        · simp only [decide_eq_true_eq] at hhigh ⊢
          omega
        · cases hhigh
      have hctag : c.tag ≠ .contextSpecific true low := by
        intro heq
        rw [atOrPast_of_tag heq, decide_eq_true_eq] at hhigh
        omega
      by_cases htag : c.tag = .contextSpecific true high
      · simp [place, hhigh, hlow, hfnot, hgat, hgtag, htag, hlt.ne']
      · simp [place, hhigh, hlow, hctag, hfnot, hgat, hgtag, htag]
    · have hnot : atOrPast high c = false := by simpa using hhigh
      rw [place_cons_of_not hnot]
      by_cases hlow : atOrPast low c = true
      · by_cases htag : c.tag = .contextSpecific true low
        · simp [place, hlow, htag, hfnot]
        · simp [place, hlow, htag, hfnot, hnot]
      · have hnot' : atOrPast low c = false := by simpa using hlow
        rw [place_cons_of_not hnot', place_cons_of_not hnot', place_cons_of_not hnot, ih]

theorem place_comm {m n : ℕ} {f g : Any} {cs : List Any} (hne : m ≠ n)
    (hf : f.tag = .contextSpecific true m) (hg : g.tag = .contextSpecific true n) :
    place m f (place n g cs) = place n g (place m f cs) := by
  rcases Nat.lt_or_gt_of_ne hne with hlt | hgt
  · exact place_comm_of_lt hlt hf hg
  · exact (place_comm_of_lt hgt hg hf).symm

/-! ### One write -/

/-- The fields of a frame that are written. -/
inductive Target
  /-- A tagged field of the metadata. -/
  | metadataField (number : ℕ)
  /-- A tagged field of the frame. -/
  | frameField (number : ℕ)
  /-- The compactness info. -/
  | compactness
  /-- The body. -/
  | message
  deriving DecidableEq, Repr

/-- One write. -/
inductive Write
  /-- `metadata.set_tagged`. -/
  | metadataField (number : ℕ) (der : Octets)
  /-- `frame.set_tagged`. -/
  | frameField (number : ℕ) (der : Octets)
  /-- `set_compactness`. -/
  | compactness (info : CompressedData)
  /-- `set_message`. -/
  | message (octets : Octets)
  deriving DecidableEq, Repr

/-- What is written. -/
def Write.target : Write → Target
  | .metadataField number _ => .metadataField number
  | .frameField number _ => .frameField number
  | .compactness _ => .compactness
  | .message _ => .message

/-- Run a write. -/
def Write.apply (L : Library) (wire : WireFrame) : Write → Except TightBeamError WireFrame
  | .metadataField number der =>
      (setTagged L wire.metadata number der).map fun metadata => { wire with metadata }
  | .frameField number der =>
      (setTagged L wire.frame number der).map fun frame => { wire with frame }
  | .compactness info => wire.setCompactness L info
  | .message octets => wire.setMessage L octets

/-- The component that is written. -/
def Write.component (L : Library) : Write → Except TightBeamError Any
  | .metadataField number der => L.newAny (.contextSpecific true number) der
  | .frameField number der => L.newAny (.contextSpecific true number) der
  | .compactness info => (L.compressedDer info).bind L.anyFromDer
  | .message octets => (L.any.write ⟨.octetString, octets⟩).bind L.anyFromDer

/-- Put compactness info after the order, in place of the one that is there. -/
def placeCompactness (field : Any) : List Any → List Any
  | id :: order :: c :: cs =>
      if c.tag = .sequence then id :: order :: field :: cs else id :: order :: field :: c :: cs
  | [id, order] => [id, order, field]
  | cs => cs

/-- Put a component in its place. -/
def Target.install (c : Any) (wire : WireFrame) : Target → WireFrame
  | .metadataField number => { wire with metadata := place number c wire.metadata }
  | .frameField number => { wire with frame := place number c wire.frame }
  | .compactness => { wire with metadata := placeCompactness c wire.metadata }
  | .message => { wire with frame := wire.frame.set 2 c }

/-- The component is one of the field. -/
def Target.Fits (c : Any) : Target → Prop
  | .metadataField number => c.tag = .contextSpecific true number
  | .frameField number => c.tag = .contextSpecific true number
  | .compactness => c.tag = .sequence
  | .message => c.tag = .octetString

/-- The components every frame, and all metadata, begins with: none has a context tag. -/
structure WireFrame.Headed (wire : WireFrame) : Prop where
  /-- `version`, `metadata` and `message`. -/
  frame : ∃ version metadata message fields, wire.frame = version :: metadata :: message :: fields ∧
    contextNumber version = none ∧ contextNumber metadata = none ∧ contextNumber message = none
  /-- `id` and `order`. -/
  metadata : ∃ id order rest, wire.metadata = id :: order :: rest ∧
    contextNumber id = none ∧ contextNumber order = none

theorem WireFrame.Laid.headed {wire : WireFrame} (h : wire.Laid) : wire.Headed := by
  obtain ⟨version, metadata, message, fields, hframe, hversion, hmetadata, hmessage, -⟩ := h.frame
  obtain ⟨id, order, compactness, rest, hms, hid, horder, -⟩ := h.metadata
  exact ⟨⟨version, metadata, message, fields, hframe, hversion, contextNumber_of_sequence hmetadata,
    contextNumber_of_octetString hmessage⟩, ⟨id, order, _, hms, hid, horder⟩⟩

theorem component_fits (hL : L.Layout) {w : Write} {c : Any} (h : w.component L = .ok c) :
    w.target.Fits c := by
  cases w with
  | metadataField number der => rw [hL.newAny h]; rfl
  | frameField number der => rw [hL.newAny h]; rfl
  | compactness info =>
    obtain ⟨der, hder, hany⟩ := bind_ok h
    exact hL.compressedDer hder hany
  | message octets =>
    obtain ⟨der, hder, hany⟩ := bind_ok h
    rw [anyFromDer_of_write hL.any hder] at hany
    cases hany
    rfl

theorem map_setTagged {α : Type} (f : List Any → α) (cs : List Any) (number : ℕ) (der : Octets) :
    (setTagged L cs number der).map f =
      (L.newAny (.contextSpecific true number) der).map fun c => f (place number c cs) := by
  rw [setTagged_eq_place]
  cases L.newAny (.contextSpecific true number) der <;> rfl

/-- **A write encodes its component and puts it in its place.** -/
theorem apply_eq {wire : WireFrame} (h : wire.Headed) (w : Write) :
    w.apply L wire = (w.component L).map fun c => w.target.install c wire := by
  cases w with
  | metadataField number der => exact map_setTagged _ wire.metadata number der
  | frameField number der => exact map_setTagged _ wire.frame number der
  | compactness info =>
    obtain ⟨id, order, rest, hmetadata, -⟩ := h.metadata
    show wire.setCompactness L info = ((L.compressedDer info).bind L.anyFromDer).map _
    unfold WireFrame.setCompactness
    cases L.compressedDer info with
    | error e => rfl
    | ok der =>
      show (L.anyFromDer der).bind _ = (L.anyFromDer der).map _
      cases L.anyFromDer der with
      | error e => rfl
      | ok field =>
        simp only [Except.bind, Except.map, Write.target, Target.install, hmetadata]
        cases rest with
        | nil => rfl
        | cons c cs =>
          by_cases htag : c.tag = .sequence
          · simp [placeCompactness, htag]
          · simp [placeCompactness, htag]
  | message octets =>
    obtain ⟨version, metadata, message, fields, hframe, -⟩ := h.frame
    have hlen : 2 < wire.frame.length := by simp [hframe]
    show wire.setMessage L octets = ((L.any.write _).bind L.anyFromDer).map _
    unfold WireFrame.setMessage
    cases L.any.write ⟨.octetString, octets⟩ with
    | error e => rfl
    | ok der =>
      show (L.anyFromDer der).bind _ = (L.anyFromDer der).map _
      cases L.anyFromDer der with
      | error e => rfl
      | ok c => simp [Except.bind, Except.map, Write.target, Target.install, hlen]

/-! ### Laws of components -/

/-- Compactness info written twice. -/
theorem placeCompactness_absorb {field : Any} (second : Any) {id order : Any} {rest : List Any}
    (hfield : field.tag = .sequence) :
    placeCompactness second (placeCompactness field (id :: order :: rest)) =
      placeCompactness second (id :: order :: rest) := by
  cases rest with
  | nil => simp [placeCompactness, hfield]
  | cons c cs =>
    by_cases htag : c.tag = .sequence
    · simp [placeCompactness, htag, hfield]
    · simp [placeCompactness, htag, hfield]

/-- Compactness info is put before the context fields, and these behind it. -/
theorem placeCompactness_place {number : ℕ} {field info id order : Any} {rest : List Any}
    (hfield : field.tag = .contextSpecific true number) (hinfo : info.tag = .sequence)
    (hid : contextNumber id = none) (horder : contextNumber order = none) :
    placeCompactness info (place number field (id :: order :: rest)) =
      place number field (placeCompactness info (id :: order :: rest)) := by
  have hskip : contextNumber info = none := contextNumber_of_sequence hinfo
  have hfield' : field.tag ≠ .sequence := by
    rw [hfield]
    intro heq
    cases heq
  rw [place_cons_of_none hid, place_cons_of_none horder]
  cases rest with
  | nil =>
    simp only [placeCompactness, place_cons_of_none hid, place_cons_of_none horder,
      place_cons_of_none hskip]
    simp [place, hfield']
  | cons c cs =>
    by_cases hc : atOrPast number c = true
    · -- `c` has a context tag, so the compactness info goes before it
      have hcontext : c.tag ≠ .sequence := by
        intro heq
        rw [atOrPast_of_sequence heq] at hc
        cases hc
      by_cases htag : c.tag = .contextSpecific true number
      · simp [place, placeCompactness, hc, htag, hfield', atOrPast_of_none hid,
          atOrPast_of_none horder, atOrPast_of_none hskip]
      · simp [place, placeCompactness, hc, htag, hcontext, hfield', atOrPast_of_none hid,
          atOrPast_of_none horder, atOrPast_of_none hskip]
    · have hnot : atOrPast number c = false := by simpa using hc
      rw [place_cons_of_not hnot]
      by_cases htag : c.tag = .sequence
      · simp [placeCompactness, htag, place_cons_of_none hid, place_cons_of_none horder,
          place_cons_of_none hskip]
      · simp [placeCompactness, htag, place_cons_of_none hid, place_cons_of_none horder,
          place_cons_of_none hskip, place_cons_of_not hnot]

/-- A component before the context fields can be set before or after a tagged field is put. -/
theorem place_set {number : ℕ} {field c : Any} (plain : List Any) {cs : List Any} (i : ℕ)
    (hplain : ∀ d ∈ plain, contextNumber d = none) (hc : contextNumber c = none)
    (hi : i < plain.length) :
    place number field ((plain ++ cs).set i c) = (place number field (plain ++ cs)).set i c := by
  induction plain generalizing i with
  | nil => exact absurd hi (Nat.not_lt_zero _)
  | cons d plain ih =>
    have hd := hplain d (List.mem_cons_self ..)
    rw [List.cons_append, place_cons_of_none hd]
    cases i with
    | zero => rw [List.set_cons_zero, List.set_cons_zero, place_cons_of_none hc]
    | succ i =>
      rw [List.set_cons_succ, List.set_cons_succ, place_cons_of_none hd,
        ih i (fun e he => hplain e (List.mem_cons_of_mem _ he)) (Nat.lt_of_succ_lt_succ hi)]

section Install

variable {wire : WireFrame} {t t' : Target} {c d : Any}

/-- The head of a frame, as the components before the context fields. -/
theorem WireFrame.Headed.place_set (h : wire.Headed) {number i : ℕ} (hi : i < 3)
    (hc : contextNumber c = none) :
    place number d (wire.frame.set i c) = (place number d wire.frame).set i c := by
  obtain ⟨version, metadata, message, fields, hframe, hversion, hmetadata, hmessage⟩ := h.frame
  have hplain : ∀ e ∈ [version, metadata, message], contextNumber e = none := by
    simp [hversion, hmetadata, hmessage]
  rw [hframe]
  exact Ws.place_set [version, metadata, message] i hplain hc hi

/-- Writes keep the head. -/
theorem install_headed (h : wire.Headed) (hfits : t.Fits c) : (t.install c wire).Headed := by
  obtain ⟨version, metadata, message, fields, hframe, hversion, hmetadata, hmessage⟩ := h.frame
  obtain ⟨id, order, rest, hms, hid, horder⟩ := h.metadata
  cases t with
  | metadataField number =>
    refine ⟨h.frame, id, order, place number c rest, ?_, hid, horder⟩
    rw [Target.install, hms, place_cons_of_none hid, place_cons_of_none horder]
  | frameField number =>
    refine ⟨⟨version, metadata, message, place number c fields, ?_, hversion, hmetadata, hmessage⟩,
      h.metadata⟩
    rw [Target.install, hframe, place_cons_of_none hversion, place_cons_of_none hmetadata,
      place_cons_of_none hmessage]
  | compactness =>
    refine ⟨h.frame, ?_⟩
    rw [Target.install, hms]
    cases rest with
    | nil => exact ⟨id, order, [c], rfl, hid, horder⟩
    | cons held rest =>
      by_cases htag : held.tag = .sequence
      · exact ⟨id, order, c :: rest, by simp [placeCompactness, htag], hid, horder⟩
      · exact ⟨id, order, c :: held :: rest, by simp [placeCompactness, htag], hid, horder⟩
  | message =>
    refine ⟨⟨version, metadata, c, fields, ?_, hversion, hmetadata,
      contextNumber_of_octetString hfits⟩, h.metadata⟩
    rw [Target.install, hframe]
    rfl

/-- **The last write wins.** -/
theorem install_absorb (h : wire.Headed) (hfits : t.Fits c) :
    t.install d (t.install c wire) = t.install d wire := by
  cases t with
  | metadataField number => simp only [Target.install, place_absorb d hfits]
  | frameField number => simp only [Target.install, place_absorb d hfits]
  | compactness =>
    obtain ⟨id, order, rest, hms, -⟩ := h.metadata
    simp only [Target.install, hms, placeCompactness_absorb d hfits]
  | message => simp only [Target.install, List.set_set]

/-- **Writes of different fields commute.** -/
theorem install_comm (h : wire.Headed) (hne : t ≠ t') (hc : t.Fits c) (hd : t'.Fits d) :
    t'.install d (t.install c wire) = t.install c (t'.install d wire) := by
  have hcompact : ∀ {number : ℕ} {field info : Any}, field.tag = .contextSpecific true number →
      info.tag = .sequence → placeCompactness info (place number field wire.metadata) =
        place number field (placeCompactness info wire.metadata) := by
    intro number field info hfield hinfo
    obtain ⟨id, order, rest, hms, hid, horder⟩ := h.metadata
    rw [hms]
    exact placeCompactness_place hfield hinfo hid horder
  have hmessage : ∀ {number : ℕ} {field body : Any}, body.tag = .octetString →
      place number field (wire.frame.set 2 body) = (place number field wire.frame).set 2 body :=
    fun hbody => h.place_set (by decide) (contextNumber_of_octetString hbody)
  cases t with
  | metadataField m =>
    cases t' with
    | metadataField n =>
      have hmn : n ≠ m := fun heq => hne (by rw [heq])
      simp only [Target.install, place_comm hmn hd hc]
    | frameField n => rfl
    | compactness => simp only [Target.install, hcompact hc hd]
    | message => rfl
  | frameField m =>
    cases t' with
    | metadataField n => rfl
    | frameField n =>
      have hmn : n ≠ m := fun heq => hne (by rw [heq])
      simp only [Target.install, place_comm hmn hd hc]
    | compactness => rfl
    | message => simp only [Target.install, hmessage hd]
  | compactness =>
    cases t' with
    | metadataField n => simp only [Target.install, hcompact hd hc]
    | frameField n => rfl
    | compactness => exact absurd rfl hne
    | message => rfl
  | message =>
    cases t' with
    | metadataField n => rfl
    | frameField n => simp only [Target.install, hmessage hc]
    | compactness => rfl
    | message => exact absurd rfl hne

end Install

/-! ### Runs of writes -/

/-- A write that succeeds. -/
def Write.step (L : Library) (wire : WireFrame) (w : Write) : Option WireFrame :=
  (w.apply L wire).toOption

theorem toOption_eq_some {ε α : Type} {x : Except ε α} {a : α} :
    x.toOption = some a ↔ x = .ok a := by
  cases x with
  | error e => simp [Except.toOption]
  | ok b => simp [Except.toOption]

/-- A write that succeeds puts a component of its field in its place. -/
theorem step_ok {wire wire' : WireFrame} (h : wire.Headed) {w : Write} :
    w.step L wire = some wire' ↔
      ∃ c, w.component L = .ok c ∧ wire' = w.target.install c wire := by
  rw [Write.step, toOption_eq_some, apply_eq h]
  constructor
  · intro hmap
    obtain ⟨c, hc, hinstall⟩ := map_ok hmap
    exact ⟨c, hc, hinstall.symm⟩
  · rintro ⟨c, hc, rfl⟩
    rw [hc]
    rfl

/-- **Writes are to independent fields.** -/
theorem independent (hL : L.Layout) :
    Independent (Write.step L) Write.target WireFrame.Headed where
  keeps {wire w wire'} h hstep := by
    obtain ⟨c, hc, rfl⟩ := (step_ok h).mp hstep
    exact install_headed h (component_fits hL hc)
  absorbs {wire w w' wire₁ wire₂} h htarget hfirst hsecond := by
    obtain ⟨c, hc, rfl⟩ := (step_ok h).mp hfirst
    have hheaded := install_headed h (component_fits hL hc)
    obtain ⟨d, hd, rfl⟩ := (step_ok hheaded).mp hsecond
    refine (step_ok h).mpr ⟨d, hd, ?_⟩
    rw [htarget]
    exact install_absorb h (htarget ▸ component_fits hL hc)
  commutes {wire w w' wire₁ wire₂} h htarget hfirst hsecond := by
    obtain ⟨c, hc, rfl⟩ := (step_ok h).mp hfirst
    have hheaded := install_headed h (component_fits hL hc)
    obtain ⟨d, hd, rfl⟩ := (step_ok hheaded).mp hsecond
    have hheaded' := install_headed h (component_fits hL hd)
    refine ⟨_, (step_ok h).mpr ⟨d, hd, rfl⟩, (step_ok hheaded').mpr ⟨c, hc, ?_⟩⟩
    exact install_comm h htarget (component_fits hL hc) (component_fits hL hd)

theorem runs_headed (hL : L.Layout) : ∀ {ws : List Write} {wire wire' : WireFrame}, wire.Headed →
    runs (Write.step L) wire ws = some wire' → wire'.Headed := by
  intro ws
  induction ws with
  | nil =>
    intro wire wire' h hrun
    cases hrun
    exact h
  | cons w ws ih =>
    intro wire wire' h hrun
    obtain ⟨wire₁, hstep, hrun⟩ := runs_cons.mp hrun
    exact ih ((independent hL).keeps h hstep) hrun

/-! ### Octets -/

/-- The metadata put back. -/
def WireFrame.refresh (m : Any) (wire : WireFrame) : WireFrame :=
  { wire with frame := wire.frame.set 1 m }

theorem refresh_install {wire : WireFrame} {t : Target} {c m : Any} (h : wire.Headed)
    (hm : m.tag = .sequence) : t.install c (wire.refresh m) = (t.install c wire).refresh m := by
  cases t with
  | metadataField number => rfl
  | frameField number =>
    simp only [Target.install, WireFrame.refresh,
      h.place_set (i := 1) (by decide) (contextNumber_of_sequence hm)]
  | compactness => rfl
  | message => simp only [Target.install, WireFrame.refresh, List.set_comm _ _ (by decide : 1 ≠ 2)]

theorem WireFrame.Headed.refresh {wire : WireFrame} (h : wire.Headed) {m : Any}
    (hm : m.tag = .sequence) : (wire.refresh m).Headed := by
  obtain ⟨version, metadata, message, fields, hframe, hversion, -, hmessage⟩ := h.frame
  exact ⟨⟨version, m, message, fields, by rw [WireFrame.refresh, hframe]; rfl, hversion,
    contextNumber_of_sequence hm, hmessage⟩, h.metadata⟩

/-- Writes do not look at the encoded metadata. -/
theorem runs_refresh (hL : L.Layout) {m : Any} (hm : m.tag = .sequence) :
    ∀ {ws : List Write} {wire wire' : WireFrame}, wire.Headed →
      runs (Write.step L) (wire.refresh m) ws = some wire' →
      ∃ wire₁, runs (Write.step L) wire ws = some wire₁ ∧ wire' = wire₁.refresh m := by
  intro ws
  induction ws with
  | nil =>
    intro wire wire' _ hrun
    cases hrun
    exact ⟨wire, rfl, rfl⟩
  | cons w ws ih =>
    intro wire wire' h hrun
    obtain ⟨wire₂, hstep, hrun⟩ := runs_cons.mp hrun
    obtain ⟨c, hc, rfl⟩ := (step_ok (h.refresh hm)).mp hstep
    rw [refresh_install h hm] at hrun
    obtain ⟨wire₁, hrest, rfl⟩ := ih (install_headed h (component_fits hL hc)) hrun
    exact ⟨wire₁, runs_cons.mpr ⟨_, (step_ok h).mpr ⟨c, hc, rfl⟩, hrest⟩, rfl⟩

/-- Nor does `finish`: it puts the metadata back itself. -/
theorem finish_refresh (wire : WireFrame) (m : Any) :
    (wire.refresh m).finish L = wire.finish L := by
  simp only [WireFrame.finish, WireFrame.refresh, List.length_set, List.set_set]

/-- What was taken apart is put together again. -/
theorem finish_of_parse (hany : L.any.Lawful) {der : Octets} {wire : WireFrame}
    (h : WireFrame.parse L der = .ok wire) : wire.finish L = .ok der := by
  obtain ⟨-, hoctets, m, hm, hfield⟩ := opened_of_parse hany h
  obtain ⟨f, hf, -⟩ := bind_ok h
  obtain ⟨hlt, heq⟩ := List.getElem?_eq_some_iff.mp hm
  have hset : wire.frame.set 1 m = wire.frame := by rw [← heq, List.set_getElem_self]
  simp only [WireFrame.finish, hfield, bind, Except.bind, if_pos hlt, hset, hoctets, hf]

/-- The writes of an operation. -/
def Splice.writes (L : Library) : Splice → Except TightBeamError (List Write)
  | .messageIntegrity oid digest => do
      let commitment ← L.digestDer ⟨algorithm oid, digest⟩
      .ok [.metadataField 0 commitment]
  | .confidentiality envelopeDer ciphertext => do
      let envelope ← L.parseEnvelope envelopeDer
      let encoded ← L.envelopeDer envelope
      .ok [.metadataField 1 encoded, .message ciphertext]
  | .compactness contentOid algorithmOid parametersDer compressed => do
      let parameters ← transpose L.anyFromDer parametersDer
      .ok [.compactness ⟨0, ⟨algorithmOid, parameters⟩, contentOid.getD .data, none⟩,
        .message compressed]
  | .witness oid digest => do
      let witness ← L.digestDer ⟨algorithm oid, digest⟩
      .ok [.frameField 0 witness]

/-- The writes of operations one after the other. -/
def Splice.writesAll (L : Library) : List Splice → Except TightBeamError (List Write)
  | [] => .ok []
  | op :: ops => do
      let ws ← op.writes L
      let rest ← Splice.writesAll L ops
      .ok (ws ++ rest)

/-- Run operations one after the other. -/
def Splice.runAll (L : Library) : Octets → List Splice → Except TightBeamError Octets
  | der, [] => .ok der
  | der, op :: ops => (op.run L der).bind fun der' => Splice.runAll L der' ops

/-- One write, as the only one. -/
theorem runs_one {wire wire' : WireFrame} {w : Write} (h : w.apply L wire = .ok wire') :
    runs (Write.step L) wire [w] = some wire' :=
  runs_cons.mpr ⟨wire', toOption_eq_some.mpr h, rfl⟩

/-- One write, then another. -/
theorem runs_two {wire wire₁ wire₂ : WireFrame} {w w' : Write} (h : w.apply L wire = .ok wire₁)
    (h' : w'.apply L wire₁ = .ok wire₂) : runs (Write.step L) wire [w, w'] = some wire₂ :=
  runs_cons.mpr ⟨wire₁, toOption_eq_some.mpr h, runs_one h'⟩

/-- **An operation** takes the octets apart, writes, and puts them together. -/
theorem Splice.run_ok {op : Splice} {der der' : Octets} (h : op.run L der = .ok der') :
    ∃ ws wire wire', op.writes L = .ok ws ∧ WireFrame.parse L der = .ok wire ∧
      runs (Write.step L) wire ws = some wire' ∧ wire'.finish L = .ok der' := by
  cases op with
  | messageIntegrity oid digest =>
    obtain ⟨wire, hparse, h⟩ := bind_ok h
    obtain ⟨commitment, hcommitment, h⟩ := bind_ok h
    obtain ⟨metadata, hmetadata, h⟩ := bind_ok h
    have hwrite : (Write.metadataField 0 commitment).apply L wire = .ok { wire with metadata } := by
      rw [Write.apply, hmetadata]
      rfl
    refine ⟨_, wire, _, ?_, hparse, runs_one hwrite, h⟩
    rw [Splice.writes, hcommitment]
    rfl
  | confidentiality envelopeDer ciphertext =>
    obtain ⟨envelope, henvelope, h⟩ := bind_ok h
    obtain ⟨wire, hparse, h⟩ := bind_ok h
    obtain ⟨encoded, hencoded, h⟩ := bind_ok h
    obtain ⟨metadata, hmetadata, h⟩ := bind_ok h
    obtain ⟨wire', hmessage, h⟩ := bind_ok h
    have hwrite : (Write.metadataField 1 encoded).apply L wire = .ok { wire with metadata } := by
      rw [Write.apply, hmetadata]
      rfl
    have hbody : (Write.message ciphertext).apply L { wire with metadata } = .ok wire' := hmessage
    refine ⟨_, wire, wire', ?_, hparse, runs_two hwrite hbody, h⟩
    rw [Splice.writes, henvelope]
    show (L.envelopeDer envelope).bind _ = _
    rw [hencoded]
    rfl
  | compactness contentOid algorithmOid parametersDer compressed =>
    obtain ⟨parameters, hparameters, h⟩ := bind_ok h
    obtain ⟨wire, hparse, h⟩ := bind_ok h
    obtain ⟨wire₁, hcompactness, h⟩ := bind_ok h
    obtain ⟨wire₂, hmessage, h⟩ := bind_ok h
    have hwrite : (Write.compactness _).apply L wire = .ok wire₁ := hcompactness
    have hbody : (Write.message compressed).apply L wire₁ = .ok wire₂ := hmessage
    refine ⟨_, wire, wire₂, ?_, hparse, runs_two hwrite hbody, h⟩
    rw [Splice.writes, hparameters]
    rfl
  | witness oid digest =>
    obtain ⟨wire, hparse, h⟩ := bind_ok h
    obtain ⟨info, hinfo, h⟩ := bind_ok h
    obtain ⟨frame, hframe, h⟩ := bind_ok h
    have hwrite : (Write.frameField 0 info).apply L wire = .ok { wire with frame } := by
      rw [Write.apply, hframe]
      rfl
    refine ⟨_, wire, _, ?_, hparse, runs_one hwrite, h⟩
    rw [Splice.writes, hinfo]
    rfl

/-- **Operations on octets** are their writes on the first frame taken apart: between two of
them the octets need not be put together. -/
theorem finish_of_runAll (hL : L.Layout) : ∀ {ops : List Splice} {der der' : Octets}
    {wire : WireFrame}, WireFrame.parse L der = .ok wire → Splice.runAll L der ops = .ok der' →
    ∃ ws wire', Splice.writesAll L ops = .ok ws ∧ runs (Write.step L) wire ws = some wire' ∧
      wire'.finish L = .ok der' := by
  intro ops
  induction ops with
  | nil =>
    intro der der' wire hparse h
    cases h
    exact ⟨[], wire, rfl, rfl, finish_of_parse hL.any hparse⟩
  | cons op ops ih =>
    intro der der' wire hparse h
    obtain ⟨der₁, hrun, h⟩ := bind_ok h
    obtain ⟨ws, wire₀, wire₁, hwrites, hparse₀, hruns, hfinish⟩ := Splice.run_ok hrun
    cases hparse.symm.trans hparse₀
    have hheaded := (hL.accepted hparse).headed
    obtain ⟨m, -, hm, hopened⟩ := opened_finish hL.any hfinish
    obtain ⟨rest, wire₂, hrest, hruns₂, hfinish₂⟩ := ih hopened.parse h
    obtain ⟨wire₃, hruns₃, rfl⟩ := runs_refresh hL hm (runs_headed hL hheaded hruns) hruns₂
    refine ⟨ws ++ rest, wire₃, ?_, runs_append.mpr ⟨wire₁, hruns, hruns₃⟩, ?_⟩
    · rw [Splice.writesAll, hwrites]
      show (Splice.writesAll L ops).bind _ = _
      rw [hrest]
      rfl
    · rw [← hfinish₂]
      exact (finish_refresh wire₃ m).symm

/-! ### The laws -/

theorem setTagged_absorb (hL : L.Layout) {cs cs₁ cs₂ : List Any} {number : ℕ} {a b : Octets}
    (ha : setTagged L cs number a = .ok cs₁) (hb : setTagged L cs₁ number b = .ok cs₂) :
    setTagged L cs number b = .ok cs₂ := by
  rw [setTagged_eq_place] at ha hb ⊢
  obtain ⟨f, hf, rfl⟩ := map_ok ha
  obtain ⟨g, hg, rfl⟩ := map_ok hb
  have htag : f.tag = .contextSpecific true number := by rw [hL.newAny hf]
  rw [place_absorb g htag, hg]
  rfl

theorem setTagged_comm (hL : L.Layout) {cs cs₁ cs₂ : List Any} {m n : ℕ} {a b : Octets}
    (hne : m ≠ n) (ha : setTagged L cs m a = .ok cs₁) (hb : setTagged L cs₁ n b = .ok cs₂) :
    ∃ cs₁', setTagged L cs n b = .ok cs₁' ∧ setTagged L cs₁' m a = .ok cs₂ := by
  rw [setTagged_eq_place] at ha hb
  obtain ⟨f, hf, rfl⟩ := map_ok ha
  obtain ⟨g, hg, rfl⟩ := map_ok hb
  have hftag : f.tag = .contextSpecific true m := by rw [hL.newAny hf]
  have hgtag : g.tag = .contextSpecific true n := by rw [hL.newAny hg]
  refine ⟨place n g cs, ?_, ?_⟩
  · rw [setTagged_eq_place, hg]
    rfl
  · rw [setTagged_eq_place, hf, ← place_comm hne hftag hgtag]
    rfl

/-- **Splice algebra.**  A tagged field written twice is as if the last value alone were
written, and tagged fields with different numbers can be written in either order.  The same
holds of every two writes of a frame that was taken apart, whatever was written before: of
tagged metadata, compactness info, the witness and the body, the last write of each wins and
writes of different ones commute.  So the octets that operations leave depend on the last
value of each field and on the last body. -/
theorem splice_algebra (hL : L.Layout) :
    (∀ {cs cs₁ cs₂ : List Any} {number : ℕ} {a b : Octets},
      setTagged L cs number a = .ok cs₁ → setTagged L cs₁ number b = .ok cs₂ →
      setTagged L cs number b = .ok cs₂) ∧
    (∀ {cs cs₁ cs₂ : List Any} {m n : ℕ} {a b : Octets}, m ≠ n →
      setTagged L cs m a = .ok cs₁ → setTagged L cs₁ n b = .ok cs₂ →
      ∃ cs₁', setTagged L cs n b = .ok cs₁' ∧ setTagged L cs₁' m a = .ok cs₂) ∧
    ∀ {der : Octets} {wire₀ : WireFrame}, WireFrame.parse L der = .ok wire₀ →
      (∀ {ws : List Write} {wire wire₁ wire₂ : WireFrame} {w w' : Write},
        runs (Write.step L) wire₀ ws = some wire →
        w.apply L wire = .ok wire₁ → w'.apply L wire₁ = .ok wire₂ →
        (w.target = w'.target → w'.apply L wire = .ok wire₂) ∧
        (w.target ≠ w'.target →
          ∃ wire₁', w'.apply L wire = .ok wire₁' ∧ w.apply L wire₁' = .ok wire₂)) ∧
      ∀ {ops ops' : List Splice} {ws ws' : List Write} {a b : Octets},
        Splice.writesAll L ops = .ok ws → Splice.writesAll L ops' = .ok ws' →
        (∀ t, lastWrite Write.target t ws = lastWrite Write.target t ws') →
        Splice.runAll L der ops = .ok a → Splice.runAll L der ops' = .ok b → a = b := by
  refine ⟨setTagged_absorb hL, setTagged_comm hL, ?_⟩
  intro der wire₀ hparse
  have hheaded := (hL.accepted hparse).headed
  refine ⟨?_, ?_⟩
  · intro ws wire wire₁ wire₂ w w' hruns hw hw'
    have hwire := runs_headed hL hheaded hruns
    have hstep : w.step L wire = some wire₁ := toOption_eq_some.mpr hw
    have hstep' : w'.step L wire₁ = some wire₂ := toOption_eq_some.mpr hw'
    refine ⟨?_, ?_⟩
    · intro htarget
      exact toOption_eq_some.mp ((independent hL).absorbs hwire htarget hstep hstep')
    · intro htarget
      obtain ⟨wire₁', hfirst, hsecond⟩ := (independent hL).commutes hwire htarget hstep hstep'
      exact ⟨wire₁', toOption_eq_some.mp hfirst, toOption_eq_some.mp hsecond⟩
  · intro ops ops' ws ws' a b hws hws' hlast ha hb
    obtain ⟨vs, wire, hvs, hruns, hfinish⟩ := finish_of_runAll hL hparse ha
    obtain ⟨vs', wire', hvs', hruns', hfinish'⟩ := finish_of_runAll hL hparse hb
    cases hws.symm.trans hvs
    cases hws'.symm.trans hvs'
    obtain rfl := (independent hL).eq_of_lastWrite hheaded hlast hruns hruns'
    exact Except.ok.inj (hfinish.symm.trans hfinish')

namespace Small

/-- A frame, with and without a commitment and a witness. -/
def installed : List Frame :=
  [frameOf none none none [0x2A] none,
    frameOf none (some ⟨⟨sha3, none⟩, [6]⟩) none [0x2A] none,
    frameOf none none none [0x2A] (some ⟨⟨sha3, none⟩, [9]⟩),
    frameOf none (some ⟨⟨sha3, none⟩, [6]⟩) none [0x2A] (some ⟨⟨sha3, none⟩, [9]⟩)]

/-- A commitment and a witness are installed in either order, with the same octets. -/
theorem either_order : ∃ der octets,
    toDer (frameOf none none none [0x2A] none) = .ok der ∧
    Splice.runAll (library installed) der [.messageIntegrity sha3 [6], .witness sha3 [9]] =
      .ok octets ∧
    Splice.runAll (library installed) der [.witness sha3 [9], .messageIntegrity sha3 [6]] =
      .ok octets := by
  have hrun : ((toDer (frameOf none none none [0x2A] none)).bind fun der =>
      (WireFrame.parse (library installed) der).bind fun wire =>
      (Splice.runAll (library installed) der
        [.messageIntegrity sha3 [6], .witness sha3 [9]]).bind fun a =>
      (Splice.runAll (library installed) der
        [.witness sha3 [9], .messageIntegrity sha3 [6]]).bind fun b =>
      ((library installed).digestDer ⟨algorithm sha3, [6]⟩).bind fun commitment =>
      ((library installed).digestDer ⟨algorithm sha3, [9]⟩).map fun witness =>
      decide (commitment = witness)) = .ok false := by decide +kernel
  obtain ⟨der, hder, hrun⟩ := bind_ok hrun
  obtain ⟨wire, hparse, hrun⟩ := bind_ok hrun
  obtain ⟨a, ha, hrun⟩ := bind_ok hrun
  obtain ⟨b, hb, hrun⟩ := bind_ok hrun
  obtain ⟨commitment, hcommitment, hrun⟩ := bind_ok hrun
  obtain ⟨witness, hwitness, -⟩ := map_ok hrun
  have hlaws := (splice_algebra ((lawful installed).layout (closing_ascends installed))).2.2 hparse
  have hws : Splice.writesAll (library installed)
      [.messageIntegrity sha3 [6], .witness sha3 [9]] =
      .ok [.metadataField 0 commitment, .frameField 0 witness] := by
    simp [Splice.writesAll, Splice.writes, hcommitment, hwitness, bind, Except.bind]
  have hws' : Splice.writesAll (library installed)
      [.witness sha3 [9], .messageIntegrity sha3 [6]] =
      .ok [.frameField 0 witness, .metadataField 0 commitment] := by
    simp [Splice.writesAll, Splice.writes, hcommitment, hwitness, bind, Except.bind]
  have hlast : ∀ t, lastWrite Write.target t
      [.metadataField 0 commitment, .frameField 0 witness] = lastWrite Write.target t
        [.frameField 0 witness, .metadataField 0 commitment] := by
    intro t
    cases t <;> simp [lastWrite, Write.target]
  obtain rfl := hlaws.2 hws hws' hlast ha hb
  exact ⟨der, a, hder, ha, hb⟩

end Small

end Ws
end TightbeamExt
