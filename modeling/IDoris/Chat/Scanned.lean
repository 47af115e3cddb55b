import IDoris.Chat.Inspection

/-!
# What the scan of a body sees

Every key, string and number is a piece of the scanned text, between two of its NULs, and every
part of the body is looked at with the flags that lead to it.
-/
namespace Chat

open Inspect Json Scanner Utf16
open Proxy (PrivacyClass)

section Pieces

/-- The second value is part of the first one; the flags are those that the walk has there. -/
inductive Within : Bool → Bool → Value Number → Bool → Bool → Value Number → Prop where
  | refl (direct suppress : Bool) (value : Value Number) :
    Within direct suppress value direct suppress value
  | item {direct suppress direct' suppress' : Bool} {items : List (Value Number)}
    {item value : Value Number} (h : item ∈ items)
    (hitem : Within direct suppress item direct' suppress' value) :
    Within direct suppress (.array items) direct' suppress' value
  | field {direct suppress direct' suppress' : Bool} {fields : Fields} {key : String}
    {item value : Value Number} (h : (key, item) ∈ fields)
    (hitem : Within (isDirect (suppresses suppress (isToolCallPart fields) key) key)
      (suppresses suppress (isToolCallPart fields) key) item direct' suppress' value) :
    Within direct suppress (.object fields) direct' suppress' value

/-- What makes one value opaque. -/
def isOpaqueValue (direct suppress : Bool) : Value Number → Bool
  | .string text => isDataUrl text
  | .object fields => isOpaqueObject direct suppress fields
  | _ => false

def ownPieces : Value Number → List String
  | .string text => [text]
  | .number number => [number.print]
  | .object fields => fields.map Prod.fst
  | _ => []

/-- The text is a key, a string or the print of a number somewhere in the body. -/
def Piece (text : String) (body : Value Number) : Prop :=
  ∃ direct suppress value, Within false false body direct suppress value ∧
    text ∈ ownPieces value

/-- A piece is closed in the text: it starts there or after a NUL, and a NUL follows. -/
def Closed (text : String) (chars : List Char) : Prop :=
  ∃ before after, chars = before ++ text.toList ++ '\x00' :: after ∧
    (before = [] ∨ before.getLast? = some '\x00')

end Pieces

section Walk

variable {text : String} {acc : Collected} {direct suppress tool : Bool} {value : Value Number}
  {items : List (Value Number)} {item : Value Number} {fields : Fields} {key : String}

/-- The walk adds to the text behind what is there, and clears no mark. -/
structure Extends (acc acc' : Collected) : Prop where
  out : ∃ more, acc'.out = acc.out ++ more ∧ (more = "" ∨ more.toList.getLast? = some '\x00')
  mark : acc.isOpaque = true → acc'.isOpaque = true

theorem Extends.refl (acc : Collected) : Extends acc acc :=
  ⟨⟨"", by simp, .inl rfl⟩, id⟩

theorem Extends.trans {acc' acc'' : Collected} (h : Extends acc acc') (h' : Extends acc' acc'') :
    Extends acc acc'' := by
  obtain ⟨first, hfirst, hend⟩ := h.out
  obtain ⟨second, hsecond, hend'⟩ := h'.out
  refine ⟨⟨first ++ second, by rw [hsecond, hfirst, String.append_assoc], ?_⟩,
    fun hmark => h'.mark (h.mark hmark)⟩
  cases hend' with
  | inl hempty =>
    subst hempty
    simpa using hend
  | inr hend' =>
    right
    rw [String.toList_append, List.getLast?_append, hend']
    rfl

theorem extends_pushLine (acc : Collected) (text : String) : Extends acc (acc.pushLine text) := by
  refine ⟨⟨text ++ "\x00", by simp [Collected.pushLine, String.append_assoc], .inr ?_⟩, id⟩
  rw [String.toList_append, List.getLast?_append]
  rfl

theorem extends_mark (acc : Collected) (found : Bool) : Extends acc (acc.mark found) := by
  refine ⟨⟨"", by simp [Collected.mark], .inl rfl⟩, fun h => ?_⟩
  simp [Collected.mark, h]

theorem extends_collectItems
    (h : ∀ item ∈ items, ∀ acc, Extends acc (collect acc direct suppress item)) :
    Extends acc (collectItems acc direct suppress items) := by
  induction items generalizing acc with
  | nil => exact .refl acc
  | cons item items ih =>
    have hhead := h item List.mem_cons_self acc
    exact hhead.trans (ih fun item hitem => h item (List.mem_cons_of_mem _ hitem))

theorem extends_collectFields
    (h : ∀ entry ∈ fields, ∀ acc direct suppress, Extends acc (collect acc direct suppress entry.2)) :
    Extends acc (collectFields acc suppress tool fields) := by
  induction fields generalizing acc with
  | nil => exact .refl acc
  | cons entry fields ih =>
    have hkey := extends_pushLine acc entry.1
    have hhead := hkey.trans (h entry List.mem_cons_self (acc.pushLine entry.1)
      (isDirect (suppresses suppress tool entry.1) entry.1) (suppresses suppress tool entry.1))
    exact hhead.trans (ih fun entry hentry => h entry (List.mem_cons_of_mem _ hentry))

theorem extends_collect (acc : Collected) (direct suppress : Bool) (value : Value Number) :
    Extends acc (collect acc direct suppress value) := by
  induction value using Value.induction generalizing acc direct suppress with
  | null => exact .refl acc
  | bool => exact .refl acc
  | number number => exact extends_pushLine acc number.print
  | string text => exact (extends_mark acc _).trans (extends_pushLine _ text)
  | array items ih => exact extends_collectItems fun item hitem acc => ih item hitem acc _ _
  | object fields ih =>
    exact (extends_mark acc _).trans (extends_collectFields fun entry hentry => ih entry hentry)

/-- The walk over a list comes to each of its items. -/
theorem visits_item (h : item ∈ items) :
    ∃ here, Extends acc here ∧
      Extends (collect here direct suppress item) (collectItems acc direct suppress items) := by
  induction items generalizing acc with
  | nil => cases h
  | cons head items ih =>
    cases List.mem_cons.mp h with
    | inl heq =>
      subst heq
      exact ⟨acc, .refl acc, extends_collectItems fun item _ acc => extends_collect acc _ _ item⟩
    | inr hrest =>
      obtain ⟨here, hbefore, hafter⟩ := ih hrest
      exact ⟨here, (extends_collect acc direct suppress head).trans hbefore, hafter⟩

/-- The walk over an object comes to each of its keys and then to the value of the key. -/
theorem visits_field (h : (key, item) ∈ fields) :
    ∃ here, Extends acc here ∧
      Extends (collect (here.pushLine key) (isDirect (suppresses suppress tool key) key)
        (suppresses suppress tool key) item) (collectFields acc suppress tool fields) := by
  induction fields generalizing acc with
  | nil => cases h
  | cons head fields ih =>
    cases List.mem_cons.mp h with
    | inl heq =>
      subst heq
      exact ⟨acc, .refl acc, extends_collectFields fun entry _ acc _ _ =>
        extends_collect acc _ _ entry.2⟩
    | inr hrest =>
      obtain ⟨here, hbefore, hafter⟩ := ih hrest
      have hhead := (extends_pushLine acc head.1).trans
        (extends_collect (acc.pushLine head.1) (isDirect (suppresses suppress tool head.1) head.1)
          (suppresses suppress tool head.1) head.2)
      exact ⟨here, hhead.trans hbefore, hafter⟩

/-- The walk over a value comes to each of its parts. -/
theorem visits_within {direct' suppress' : Bool} {part : Value Number}
    (h : Within direct suppress value direct' suppress' part) (acc : Collected) :
    ∃ here, Extends acc here ∧
      Extends (collect here direct' suppress' part) (collect acc direct suppress value) := by
  induction h generalizing acc with
  | refl direct suppress value => exact ⟨acc, .refl acc, .refl _⟩
  | item hmem _ ih =>
    obtain ⟨first, hfirst, hafter⟩ := visits_item hmem
    obtain ⟨here, hbefore, hpart⟩ := ih first
    exact ⟨here, hfirst.trans hbefore, hpart.trans hafter⟩
  | field hmem _ ih =>
    obtain ⟨first, hfirst, hafter⟩ := visits_field hmem
    obtain ⟨here, hbefore, hpart⟩ := ih (first.pushLine _)
    exact ⟨here, ((extends_mark acc _).trans hfirst).trans ((extends_pushLine first _).trans hbefore),
      hpart.trans hafter⟩

/-- A value pushes its own pieces. -/
theorem pushes_own (direct suppress : Bool) (h : text ∈ ownPieces value) (acc : Collected) :
    ∃ here, Extends acc here ∧
      Extends (here.pushLine text) (collect acc direct suppress value) := by
  cases value with
  | null => cases h
  | bool => cases h
  | array => cases h
  | number number =>
    rw [List.mem_singleton.mp h]
    exact ⟨acc, .refl acc, .refl _⟩
  | string own =>
    rw [List.mem_singleton.mp h]
    exact ⟨acc.mark (isDataUrl own), extends_mark acc _, .refl _⟩
  | object fields =>
    obtain ⟨entry, hentry, rfl⟩ := List.mem_map.mp h
    obtain ⟨here, hbefore, hafter⟩ := visits_field hentry
    exact ⟨here, (extends_mark acc _).trans hbefore, (extends_collect _ _ _ _).trans hafter⟩

/-- Every piece of the body is closed in the text of the walk. -/
theorem closed_of_piece (h : Piece text value) (mark : Bool) :
    Closed text (collect ⟨"", mark⟩ false false value).out.toList := by
  obtain ⟨direct, suppress, part, hwithin, hown⟩ := h
  obtain ⟨first, hfirst, hpart⟩ := visits_within hwithin ⟨"", mark⟩
  obtain ⟨here, hhere, hline⟩ := pushes_own direct suppress hown first
  obtain ⟨before, hbefore, hend⟩ := (hfirst.trans hhere).out
  obtain ⟨after, hafter, -⟩ := (hline.trans hpart).out
  refine ⟨before.toList, after.toList, ?_, ?_⟩
  · rw [hafter, Collected.pushLine, hbefore]
    simp
  · cases hend with
    | inl hempty => exact .inl (by rw [hempty]; rfl)
    | inr hend => exact .inr hend

theorem mark_of_own (h : isOpaqueValue direct suppress value = true) (acc : Collected) :
    (collect acc direct suppress value).isOpaque = true := by
  cases value with
  | null => cases h
  | bool => cases h
  | array => cases h
  | number => cases h
  | string own =>
    have h : isDataUrl own = true := h
    show (acc.isOpaque || isDataUrl own) = true
    rw [h, Bool.or_true]
  | object fields =>
    have h : isOpaqueObject direct suppress fields = true := h
    have hfields : Extends (acc.mark (isOpaqueObject direct suppress fields))
        (collect acc direct suppress (.object fields)) :=
      extends_collectFields fun entry _ acc direct suppress => extends_collect acc direct suppress entry.2
    apply hfields.mark
    show (acc.isOpaque || isOpaqueObject direct suppress fields) = true
    rw [h, Bool.or_true]

/-- What the walk of a list marks, one of its items marks. -/
theorem marked_collectItems (h : (collectItems acc direct suppress items).isOpaque = true) :
    acc.isOpaque = true ∨
      ∃ item ∈ items, ∃ here : Collected, here.isOpaque = false ∧
        (collect here direct suppress item).isOpaque = true := by
  induction items generalizing acc with
  | nil => exact .inl h
  | cons item items ih =>
    obtain hhead | ⟨other, hother, hmarked⟩ := ih h
    · cases hacc : acc.isOpaque with
      | true => exact .inl rfl
      | false => exact .inr ⟨item, List.mem_cons_self, acc, hacc, hhead⟩
    · exact .inr ⟨other, List.mem_cons_of_mem _ hother, hmarked⟩

theorem marked_collectFields (h : (collectFields acc suppress tool fields).isOpaque = true) :
    acc.isOpaque = true ∨
      ∃ entry ∈ fields, ∃ here : Collected, here.isOpaque = false ∧
        (collect here (isDirect (suppresses suppress tool entry.1) entry.1)
          (suppresses suppress tool entry.1) entry.2).isOpaque = true := by
  induction fields generalizing acc with
  | nil => exact .inl h
  | cons entry fields ih =>
    obtain hhead | ⟨other, hother, hmarked⟩ := ih h
    · cases hacc : acc.isOpaque with
      | true => exact .inl rfl
      | false => exact .inr ⟨entry, List.mem_cons_self, acc.pushLine entry.1, hacc, hhead⟩
    · exact .inr ⟨other, List.mem_cons_of_mem _ hother, hmarked⟩

/-- The walk marks a body exactly for a part that is opaque where it stands. -/
theorem isOpaque_collect : (collect acc direct suppress value).isOpaque = true ↔
    acc.isOpaque = true ∨ ∃ direct' suppress' part,
      Within direct suppress value direct' suppress' part ∧
        isOpaqueValue direct' suppress' part = true := by
  constructor
  · induction value using Value.induction generalizing acc direct suppress with
    | null => exact .inl
    | bool => exact .inl
    | number => exact .inl
    | string own =>
      intro h
      cases Bool.or_eq_true_iff.mp h with
      | inl h => exact .inl h
      | inr h => exact .inr ⟨direct, suppress, _, .refl _ _ _, h⟩
    | array items ih =>
      intro h
      obtain h | ⟨item, hitem, here, hclear, hmarked⟩ := marked_collectItems h
      · exact .inl h
      · obtain h | ⟨direct', suppress', part, hwithin, hopaque⟩ := ih item hitem hmarked
        · rw [hclear] at h
          cases h
        · exact .inr ⟨direct', suppress', part, .item hitem hwithin, hopaque⟩
    | object fields ih =>
      intro h
      obtain h | ⟨entry, hentry, here, hclear, hmarked⟩ := marked_collectFields h
      · cases Bool.or_eq_true_iff.mp h with
        | inl h => exact .inl h
        | inr h => exact .inr ⟨direct, suppress, _, .refl _ _ _, h⟩
      · obtain h | ⟨direct', suppress', part, hwithin, hopaque⟩ := ih entry hentry hmarked
        · rw [hclear] at h
          cases h
        · exact .inr ⟨direct', suppress', part, .field hentry hwithin, hopaque⟩
  · rintro (h | ⟨direct', suppress', part, hwithin, hopaque⟩)
    · exact (extends_collect acc direct suppress value).mark h
    · obtain ⟨here, -, hafter⟩ := visits_within hwithin acc
      exact hafter.mark (mark_of_own hopaque here)

end Walk

section Action

variable {body : Value Number} {declared : PrivacyClass} {killSwitch : Bool}

/-- A part of the body that no scan can read. -/
def HasOpaquePart (body : Value Number) : Prop :=
  hasTokenInput body = true ∨ ∃ direct suppress part, Within false false body direct suppress part ∧
    isOpaqueValue direct suppress part = true

theorem collected_isOpaque : (collected body).isOpaque = true ↔ HasOpaquePart body :=
  isOpaque_collect

theorem verdictOf_effective {isOpaque : Bool} {response : InspectResponse} :
    (verdictOf declared killSwitch isOpaque response).effective = .any ↔
      declared = .any ∧ isOpaque = false ∧ response.action = .allow := by
  cases declared <;> cases isOpaque <;> cases h : response.action <;>
    simp [verdictOf, Policy.effectivePrivacy, h]

theorem decideAction_allow {hits : List Hit} {sensitivity : Sensitivity} {ctx : InspectCtx}
    (h : decideAction hits sensitivity ctx = .allow) :
    ctx.declared = .any ∧ ctx.remoteAllowed = true ∧ hits = [] := by
  unfold decideAction at h
  split at h
  · cases h
  · rename_i hctx
    split at h
    · rename_i hnone
      simp only [Bool.or_eq_true, decide_eq_true_eq, Bool.not_eq_true', not_or] at hctx
      refine ⟨?_, by simpa using hctx.2, hnone⟩
      cases hdeclared : ctx.declared with
      | any => rfl
      | localOnly => exact absurd hdeclared hctx.1
    · split at h <;> cases h

variable [Entropy] {input : String} {ctx : InspectCtx} {response : InspectResponse}

/-- A text is allowed only where remote providers are, and only if nothing is found in it. -/
theorem inspect_allow (h : inspect input ctx = some response) (hallow : response.action = .allow) :
    exceedsLimit input ctx.maxInputUtf16 = false ∧ ctx.declared = .any ∧
      ctx.remoteAllowed = true ∧ response.findings = [] := by
  cases hlimit : exceedsLimit input ctx.maxInputUtf16 with
  | true =>
    simp only [inspect, hlimit, if_true, Option.some.injEq] at h
    subst h
    cases hallow
  | false =>
    obtain ⟨hits, found, -, hfound, hfindings, -, haction⟩ := inspect_eq hlimit
    rw [h, Option.some.injEq] at hfound
    subst hfound
    rw [hallow] at haction
    cases hdata : containsBase64DataUrl input with
    | true =>
      rw [hdata] at haction
      cases haction
    | false =>
      rw [hdata] at haction
      obtain ⟨hdeclared, hremote, hnone⟩ := decideAction_allow haction.symm
      exact ⟨rfl, hdeclared, hremote, by rw [hfindings, hnone]; rfl⟩

end Action

section Verdict

variable [Entropy] {body : Value Number} {declared : PrivacyClass} {killSwitch : Bool}
  {inspection : Inspection}

theorem inspectBody_eq (h : inspectBody body declared killSwitch = some inspection) :
    ∃ response, inspect (collected body).out (bodyCtx declared killSwitch) = some response ∧
      inspection = verdictOf declared killSwitch (collected body).isOpaque response := by
  obtain ⟨response, hresponse, rfl⟩ := Option.map_eq_some_iff.mp h
  exact ⟨response, hresponse, rfl⟩

/-- The inspection never fails to answer. -/
theorem inspectBody_isSome (body : Value Number) (declared : PrivacyClass) (killSwitch : Bool) :
    ∃ inspection, inspectBody body declared killSwitch = some inspection := by
  obtain ⟨response, hresponse⟩ := exists_inspect (collected body).out (bodyCtx declared killSwitch)
  exact ⟨_, Option.map_eq_some_iff.mpr ⟨response, hresponse, rfl⟩⟩

/-- What lets a body keep the privacy `any`. -/
structure Cleared (body : Value Number) (declared : PrivacyClass) (killSwitch : Bool) : Prop where
  declared : declared = .any
  remote : killSwitch = false
  readable : ¬HasOpaquePart body
  allowed : ∃ response, inspect (collected body).out (bodyCtx .any false) = some response ∧
    response.action = .allow

theorem cleared_of_any (h : inspectBody body declared killSwitch = some inspection)
    (hany : inspection.effective = .any) : Cleared body declared killSwitch := by
  obtain ⟨response, hresponse, rfl⟩ := inspectBody_eq h
  obtain ⟨rfl, hclear, hallow⟩ := verdictOf_effective.mp hany
  obtain ⟨-, -, hremote, -⟩ := inspect_allow hresponse hallow
  have hoff : killSwitch = false := by simpa [bodyCtx] using hremote
  subst hoff
  refine ⟨rfl, rfl, ?_, response, hresponse, hallow⟩
  rw [← collected_isOpaque, Bool.not_eq_true]
  exact hclear

theorem any_of_cleared (h : inspectBody body declared killSwitch = some inspection)
    (hclear : Cleared body declared killSwitch) : inspection.effective = .any := by
  obtain ⟨response, hresponse, rfl⟩ := inspectBody_eq h
  obtain ⟨rfl, rfl, hreadable, other, hother, hallow⟩ := hclear
  rw [hresponse, Option.some.injEq] at hother
  rw [← collected_isOpaque, Bool.not_eq_true] at hreadable
  exact verdictOf_effective.mpr ⟨rfl, hreadable, hother ▸ hallow⟩

/-- A body keeps the privacy `any` exactly if that is what was declared, remote providers are
not switched off, no part of it is opaque and the scan of its text allows it. -/
theorem body_any_iff (h : inspectBody body declared killSwitch = some inspection) :
    inspection.effective = .any ↔ Cleared body declared killSwitch :=
  ⟨cleared_of_any h, any_of_cleared h⟩

end Verdict

section Numbers

variable {units left right : List Nat} {a b extra : Nat} {kind : FindingKind} {text : String}

/-- A number needs of the unit behind it only that it is a check letter. -/
theorem isNumber_behind {d : List Nat} {next next' : Option Nat} (h : IsNumber d next kind extra)
    (hnext : next.any isCheckX = true → next'.any isCheckX = true) :
    IsNumber d next' kind extra := by
  cases h with
  | mobile hmobile => exact .mobile hmobile
  | countryMobile hcountry hmobile => exact .countryMobile hcountry hmobile
  | legacyId hlength hid => exact .legacyId hlength hid
  | modernId hlength hid => exact .modernId hlength hid
  | suffixedId hlength hid hx => exact .suffixedId hlength hid (hnext hx)
  | card hlow hhigh hlead hluhn => exact .card hlow hhigh hlead hluhn

theorem digitsOf_embed (hb : b ≤ units.length) :
    digitsOf (left ++ units ++ right) (left.length + a, left.length + b) =
      digitsOf units (a, b) := by
  simp only [digitsOf]
  rw [List.append_assoc, List.take_append, List.take_of_length_le (by omega),
    Nat.add_sub_cancel_left, List.take_append_of_le_length hb, List.drop_append,
    List.drop_of_length_le (by omega), Nat.add_sub_cancel_left, List.nil_append]

/-- A number in one piece is the same number in any text in which the piece is closed. -/
theorem number_of_closed {joined : String} (h : Closed text joined.toList)
    (hrun : IsRun isDigit (encode text) a b)
    (hnumber : IsNumber (digitsOf (encode text) (a, b)) (encode text)[b]? kind extra) :
    ∃ a' b', IsRun isDigit (encode joined) a' b' ∧
      IsNumber (digitsOf (encode joined) (a', b')) (encode joined)[b']? kind extra := by
  obtain ⟨before, after, hjoined, hbefore⟩ := h
  have hunits : encode joined =
      encodeChars before ++ encode text ++ encodeChars ('\x00' :: after) := by
    rw [encode, hjoined]
    simp [encode]
  have hle := hrun.le
  refine ⟨(encodeChars before).length + a, (encodeChars before).length + b, ?_, ?_⟩
  · rw [hunits]
    apply hrun.embed
    · intro u hu
      cases hbefore with
      | inl hempty =>
        subst hempty
        cases hu
      | inr hend =>
        obtain ⟨front, rfl⟩ := List.getLast?_eq_some_iff.mp hend
        rw [encodeChars_append, List.getLast?_append] at hu
        cases hu
        rfl
    · intro u hu
      cases hu
      rfl
  · rw [hunits, digitsOf_embed hle]
    apply isNumber_behind hnumber
    intro hx
    have hlt : b < (encode text).length := by
      by_contra hge
      rw [List.getElem?_eq_none (by omega)] at hx
      cases hx
    rwa [List.append_assoc, List.getElem?_append_right (by omega), Nat.add_sub_cancel_left,
      List.getElem?_append_left hlt]

variable [Entropy] {body : Value Number} {declared : PrivacyClass} {killSwitch : Bool}
  {inspection : Inspection}

/-- The rules find the number in its own run. -/
theorem plainHits_number (hrun : IsRun isDigit units a b)
    (hpaired : Paired units)
    (hnumber : IsNumber (digitsOf units (a, b)) units[b]? kind extra) :
    ∃ hits hit, plainHits units = some hits ∧ hit ∈ hits := by
  obtain ⟨p, q, hmem, hpa, hbq⟩ : ∃ p q,
      (p, q) ∈ stretches (groupLength isSeparator) units ∧ p ≤ a ∧ b ≤ q :=
    exists_group_of_run hrun
  obtain ⟨hits, sensitivity, hhits, hhit⟩ := scanGroup_run hmem hpa hbq hrun hnumber
  obtain ⟨plain, hplain, -⟩ := plainHits_fitting units hpaired
  have hfound := hplain
  simp only [plainHits, bind, Option.bind_eq_some_iff, pure, Option.some.injEq] at hfound
  obtain ⟨groups, hgroups, rest⟩ := hfound
  have hin := (mem_flatMapM hgroups).mpr ⟨_, hmem, hits, hhits, hhit⟩
  obtain ⟨formatted, -, country, -, tokens, -, secrets, -, crossline, -, rfl⟩ := rest
  exact ⟨_, _, hplain, by simp only [List.mem_append]; tauto⟩

/-- A body with a telephone number, a resident id or a card number as a run of digits of any of
its keys, strings and numbers stays on this machine. -/
theorem number_pins (hpiece : Piece text body) (hrun : IsRun isDigit (encode text) a b)
    (hnumber : IsNumber (digitsOf (encode text) (a, b)) (encode text)[b]? kind extra)
    (h : inspectBody body declared killSwitch = some inspection) :
    inspection.effective = .localOnly := by
  obtain ⟨a', b', hrun', hnumber'⟩ :=
    number_of_closed (closed_of_piece hpiece (hasTokenInput body)) hrun hnumber
  by_contra hne
  have hany : inspection.effective = .any := by
    cases heffective : inspection.effective with
    | any => rfl
    | localOnly => exact absurd heffective hne
  obtain ⟨-, -, -, response, hresponse, hallow⟩ := cleared_of_any h hany
  obtain ⟨hlimit, -, -, hnone⟩ := inspect_allow hresponse hallow
  obtain ⟨hits, hit, hhits, hhit⟩ := plainHits_number hrun' (paired_encode _) hnumber'
  obtain ⟨other, hother, hfinding⟩ := reports_of_plainHits hlimit hhits hhit
  rw [hresponse, Option.some.injEq] at hother
  subst hother
  rw [hnone] at hfinding
  cases hfinding

end Numbers

section Sample

def helloBody : Value Number :=
  .object [("messages", .array [.object [("content", .string "hello"), ("role", .string "user")]])]

/-- A telephone number that a tool got as a number. -/
def numberBody : Value Number :=
  .object [("arguments", .object [("tel", .number (.integer 13800138000))])]

theorem body_any_iff_hello :
    ∃ inspection, inspectBody helloBody .any false = some inspection ∧ inspection.effective = .any := by
  have hallowed : ∃ response, inspect (collected helloBody).out (bodyCtx .any false) =
      some response ∧ response.action = .allow :=
    ⟨⟨.s0, [], .allow⟩, by decide +kernel, rfl⟩
  have hclear : ¬HasOpaquePart helloBody := by
    rw [← collected_isOpaque]
    decide +kernel
  obtain ⟨inspection, hinspection⟩ := inspectBody_isSome helloBody .any false
  exact ⟨inspection, hinspection, (body_any_iff hinspection).mpr ⟨rfl, rfl, hclear, hallowed⟩⟩

theorem number_pins_tel : ∃ inspection, inspectBody numberBody .any false = some inspection ∧
    inspection.effective = .localOnly := by
  obtain ⟨inspection, hinspection⟩ := inspectBody_isSome numberBody .any false
  have hpiece : Piece "13800138000" numberBody :=
    ⟨_, _, _, .field List.mem_cons_self (.field List.mem_cons_self (.refl _ _ _)),
      by decide +kernel⟩
  exact ⟨inspection, hinspection, number_pins hpiece (isRun_of_mem_runs (by decide : (0, 11) ∈ _))
    (.mobile (by decide)) hinspection⟩

end Sample

end Chat
