import Mathlib.Data.List.Perm.Basic
import RpcBindings.Proofs.Script

/-!
# Members in another order

A script may list the members of any of its objects in another order. Where no two members of an object are kept under one
name, the values of both scripts differ in the order of members only.
-/

namespace RpcBindings.Json

theorem rel_trans {α : Type} {R : α → α → Prop} (htrans : ∀ a b c, R a b → R b c → R a c) {x y z : Option α}
    (h : Option.Rel R x y) (h' : Option.Rel R y z) : Option.Rel R x z := by
  cases h with
  | none => exact h'
  | some hab =>
    cases h' with
    | some hbc => exact .some (htrans _ _ _ hab hbc)

theorem rel_cases {α : Type} {R : α → α → Prop} {x y : Option α} (h : Option.Rel R x y) :
    x = none ∧ y = none ∨ ∃ a b, x = some a ∧ y = some b ∧ R a b := by
  cases h with
  | none => exact .inl ⟨rfl, rfl⟩
  | some hab => exact .inr ⟨_, _, rfl, rfl, hab⟩

namespace Script

/-- The same text but for the order of members, in as many objects as one likes. -/
inductive Reordered : Script → Script → Prop where
  | members {members members' : List (List Sign × Script)} (h : members.Perm members') :
      Reordered (object members) (object members')
  | item {before after : List Script} {a b : Script} (h : Reordered a b) :
      Reordered (array (before ++ a :: after)) (array (before ++ b :: after))
  | member {before after : List (List Sign × Script)} {key : List Sign} {a b : Script} (h : Reordered a b) :
      Reordered (object (before ++ (key, a) :: after)) (object (before ++ (key, b) :: after))
  | trans {a b c : Script} (h : Reordered a b) (h' : Reordered b c) : Reordered a c

theorem membersHeight_perm {members members' : List (List Sign × Script)} (h : members.Perm members') :
    membersHeight members = membersHeight members' := by
  induction h with
  | nil => rfl
  | cons m _ ih => rw [membersHeight, membersHeight, ih]
  | swap m m' rest =>
    simp only [membersHeight]
    omega
  | trans _ _ ih ih' => exact ih.trans ih'

theorem Reordered.height_eq {a b : Script} (h : Reordered a b) : a.height = b.height := by
  induction h with
  | members h => rw [height, height, membersHeight_perm h]
  | item _ ih =>
    rw [height, height, itemsHeight_eq, itemsHeight_eq, List.foldr_append, List.foldr_append, List.foldr_cons,
      List.foldr_cons, ih]
  | member _ ih =>
    rw [height, height, membersHeight_eq, membersHeight_eq, List.foldr_append, List.foldr_append, List.foldr_cons,
      List.foldr_cons, ih]
  | trans _ _ ih ih' => exact ih.trans ih'

variable {ρ : Type} (g : Grammar ρ)

mutual

def objects : Form ρ → Script → List (ObjectForm ρ × List (List Sign))
  | .list r, array items => itemObjects (.record r) items
  | .record r, object members => (.record r, members.map Prod.fst) :: memberObjects (.record r) members
  | .table r, object members => (.table r, members.map Prod.fst) :: memberObjects (.table r) members
  | _, _ => []

def itemObjects (form : Form ρ) : List Script → List (ObjectForm ρ × List (List Sign))
  | [] => []
  | a :: rest => objects form a ++ itemObjects form rest

def memberObjects (o : ObjectForm ρ) : List (List Sign × Script) → List (ObjectForm ρ × List (List Sign))
  | [] => []
  | (key, a) :: rest =>
    match o.place? g key with
    | some (_, form) => objects form a ++ memberObjects o rest
    | none => memberObjects o rest

end

/-- No two members of an object are kept under one name. -/
def Apart (form : Form ρ) (a : Script) : Prop :=
  ∀ x ∈ objects g form a, (x.2.filterMap fun key => (x.1.place? g key).map Prod.fst).Nodup

instance (form : Form ρ) (a : Script) : Decidable (Apart g form a) := inferInstanceAs (Decidable (∀ x ∈ _, _))

variable {g}

theorem mem_objects_array {r : ρ} {items : List Script} {x : ObjectForm ρ × List (List Sign)} :
    x ∈ objects g (.list r) (array items) ↔ ∃ a ∈ items, x ∈ objects g (.record r) a := by
  rw [objects]
  induction items with
  | nil => simp [itemObjects]
  | cons a items ih => simp [itemObjects, ih]

theorem mem_objects_object {o : ObjectForm ρ} {members : List (List Sign × Script)} {x : ObjectForm ρ × List (List Sign)} :
    x ∈ objects g o.form (object members) ↔ x = (o, members.map Prod.fst) ∨
      ∃ m ∈ members, ∃ name form, o.place? g m.1 = some (name, form) ∧ x ∈ objects g form m.2 := by
  have hmembers : x ∈ memberObjects g o members ↔
      ∃ m ∈ members, ∃ name form, o.place? g m.1 = some (name, form) ∧ x ∈ objects g form m.2 := by
    induction members with
    | nil => simp [memberObjects]
    | cons m members ih =>
      obtain ⟨key, a⟩ := m
      cases hplace : o.place? g key with
      | none => simp [memberObjects, hplace, ih]
      | some place =>
        obtain ⟨name, form⟩ := place
        simp [memberObjects, hplace, ih]
  rw [← hmembers]
  cases o <;> rw [ObjectForm.form, objects, List.mem_cons]

theorem mem_or_eq_of_replaced {α : Type} {before after : List α} {a b c : α} (h : c ∈ before ++ b :: after) :
    c ∈ before ++ a :: after ∨ c = b := by
  rcases List.mem_append.mp h with hc | hc
  · exact .inl (List.mem_append_left _ hc)
  · rcases List.mem_cons.mp hc with rfl | hc
    · exact .inr rfl
    · exact .inl (List.mem_append_right _ (List.mem_cons_of_mem _ hc))

theorem exists_object_of_members {o : ObjectForm ρ} {members members' : List (List Sign × Script)}
    (hkeys : (members.map Prod.fst).Perm (members'.map Prod.fst))
    (h : ∀ m' ∈ members', ∃ m ∈ members, m.1 = m'.1 ∧ ∀ {form : Form ρ} {x : ObjectForm ρ × List (List Sign)},
      x ∈ objects g form m'.2 → ∃ keys, (x.1, keys) ∈ objects g form m.2 ∧ keys.Perm x.2)
    {x : ObjectForm ρ × List (List Sign)} (hx : x ∈ objects g o.form (object members')) :
    ∃ keys, (x.1, keys) ∈ objects g o.form (object members) ∧ keys.Perm x.2 := by
  rcases mem_objects_object.mp hx with rfl | ⟨m', hm', name, form, hplace, hx⟩
  · exact ⟨_, mem_objects_object.mpr (.inl rfl), hkeys⟩
  · obtain ⟨m, hm, hkey, hinside⟩ := h m' hm'
    obtain ⟨keys, hin, hperm⟩ := hinside hx
    exact ⟨keys, mem_objects_object.mpr (.inr ⟨m, hm, name, form, hkey ▸ hplace, hin⟩), hperm⟩

theorem Reordered.exists_object {a b : Script} (h : Reordered a b) :
    ∀ {form : Form ρ} {x : ObjectForm ρ × List (List Sign)}, x ∈ objects g form b →
      ∃ keys, (x.1, keys) ∈ objects g form a ∧ keys.Perm x.2 := by
  induction h with
  | @members members members' h =>
    intro form x hx
    have hmembers : ∀ m' ∈ members', ∃ m ∈ members, m.1 = m'.1 ∧ ∀ {form : Form ρ} {x : ObjectForm ρ × List (List Sign)},
        x ∈ objects g form m'.2 → ∃ keys, (x.1, keys) ∈ objects g form m.2 ∧ keys.Perm x.2 :=
      fun m hm => ⟨m, h.mem_iff.mpr hm, rfl, fun hx => ⟨_, hx, .refl _⟩⟩
    cases form with
    | record r => exact exists_object_of_members (o := .record r) (h.map _) hmembers hx
    | table r => exact exists_object_of_members (o := .table r) (h.map _) hmembers hx
    | _ => cases hx
  | @item before after a b _ ih =>
    intro form x hx
    cases form with
    | list r =>
      obtain ⟨c, hc, hin⟩ := mem_objects_array.mp hx
      rcases mem_or_eq_of_replaced hc with hc | rfl
      · exact ⟨x.2, mem_objects_array.mpr ⟨c, hc, hin⟩, .refl _⟩
      · obtain ⟨keys, hkeys, hperm⟩ := ih hin
        exact ⟨keys, mem_objects_array.mpr ⟨a, List.mem_append_right _ List.mem_cons_self, hkeys⟩, hperm⟩
    | _ => cases hx
  | @member before after key a b _ ih =>
    intro form x hx
    have hkeys : ((before ++ (key, a) :: after).map Prod.fst).Perm ((before ++ (key, b) :: after).map Prod.fst) := by
      simp
    have hmembers : ∀ m' ∈ before ++ (key, b) :: after, ∃ m ∈ before ++ (key, a) :: after, m.1 = m'.1 ∧
        ∀ {form : Form ρ} {x : ObjectForm ρ × List (List Sign)}, x ∈ objects g form m'.2 →
          ∃ keys, (x.1, keys) ∈ objects g form m.2 ∧ keys.Perm x.2 := by
      intro m hm
      rcases mem_or_eq_of_replaced hm with hm | rfl
      · exact ⟨m, hm, rfl, fun hx => ⟨_, hx, .refl _⟩⟩
      · exact ⟨(key, a), List.mem_append_right _ List.mem_cons_self, rfl, ih⟩
    cases form with
    | record r => exact exists_object_of_members (o := .record r) hkeys hmembers hx
    | table r => exact exists_object_of_members (o := .table r) hkeys hmembers hx
    | _ => cases hx
  | trans _ _ ih ih' =>
    intro form x hx
    obtain ⟨keys', hkeys', hperm'⟩ := ih' hx
    obtain ⟨keys, hkeys, hperm⟩ := ih hkeys'
    exact ⟨keys, hkeys, hperm.trans hperm'⟩

theorem Apart.reordered {a b : Script} {form : Form ρ} (ha : Apart g form a) (h : Reordered a b) : Apart g form b := by
  intro x hx
  obtain ⟨keys, hkeys, hperm⟩ := h.exists_object hx
  exact (hperm.filterMap _).nodup_iff.mp (ha _ hkeys)

theorem Apart.item {before after : List Script} {a : Script} {r : ρ}
    (h : Apart g (.list r) (array (before ++ a :: after))) : Apart g (.record r) a := by
  intro x hx
  exact h x (mem_objects_array.mpr ⟨a, List.mem_append_right _ List.mem_cons_self, hx⟩)

theorem Apart.member {before after : List (List Sign × Script)} {key : List Sign} {a : Script} {o : ObjectForm ρ}
    {name : Text} {form : Form ρ} (h : Apart g o.form (object (before ++ (key, a) :: after)))
    (hplace : o.place? g key = some (name, form)) : Apart g form a := by
  intro x hx
  have hin : (key, a) ∈ before ++ (key, a) :: after := List.mem_append_right _ List.mem_cons_self
  exact h x (mem_objects_object.mpr (.inr ⟨(key, a), hin, name, form, hplace, hx⟩))

end Script

/-! ## Values -/

variable {ρ : Type} (g : Grammar ρ)

def ObjectForm.Holds : ObjectForm ρ → Text → Form ρ → Prop
  | record r, name, form => (name, form) ∈ g r
  | table r, _, form => form = .record r

/-- Values in the place of a form that differ in the order of members only, where names are distinct. -/
inductive Alike : Form ρ → Json → Json → Prop where
  | refl (form : Form ρ) (v : Json) : Alike form v v
  | members {o : ObjectForm ρ} {members members' : List (Text × Json)} (h : members.Perm members')
      (hnames : (members.map Prod.fst).Nodup) (hmembers : ∀ m ∈ members, ∃ form, o.Holds g m.1 form) :
      Alike o.form (.object members) (.object members')
  | item {r : ρ} {before after : List Json} {v w : Json} (h : Alike (.record r) v w) :
      Alike (.list r) (.array (before ++ v :: after)) (.array (before ++ w :: after))
  | member {o : ObjectForm ρ} {before after : List (Text × Json)} {name : Text} {form : Form ρ} {v w : Json}
      (hname : o.Holds g name form) (h : Alike form v w) :
      Alike o.form (.object (before ++ (name, v) :: after)) (.object (before ++ (name, w) :: after))
  | trans {form : Form ρ} {u v w : Json} (h : Alike form u v) (h' : Alike form v w) : Alike form u w

variable {g}

namespace Sign

theorem mem_of_named? {φ : Type} {fields : List (Text × φ)} {key : List Sign} {found : Text × φ} :
    ∀ {candidates : List (Candidate φ)} {length : Nat}, (∀ c ∈ candidates, (c.name, c.form) ∈ fields) →
      named? candidates length key = some found → found ∈ fields := by
  have hnarrow {candidates : List (Candidate φ)} (b : UInt8) (h : ∀ c ∈ candidates, (c.name, c.form) ∈ fields) :
      ∀ c ∈ Key.narrow candidates b, (c.name, c.form) ∈ fields := by
    intro c hc
    obtain ⟨c', hc', hsome⟩ := List.mem_filterMap.mp hc
    split at hsome
    next => cases hsome
    next =>
      split at hsome
      · obtain rfl := Option.some.inj hsome
        exact h c' hc'
      · cases hsome
  induction key with
  | nil =>
    intro candidates length h hfound
    cases candidates with
    | nil => cases hfound
    | cons c candidates =>
      simp only [named?, Key.found?, List.head?_cons] at hfound
      split at hfound
      · cases hfound
      · obtain rfl := Option.some.inj hfound
        exact h c List.mem_cons_self
  | cons sign rest ih =>
    intro candidates length h hfound
    cases sign with
    | plain b hb => exact ih (hnarrow b h) hfound
    | short letter b hb => cases hfound
    | unit a b c d hdigits =>
      refine ih (fun x hx => ?_) hfound
      unfold Key.narrowUnit at hx
      split at hx
      · exact hnarrow _ h x hx
      · cases hx

end Sign

theorem ObjectForm.holds_of_place? {o : ObjectForm ρ} {key : List Sign} {name : Text} {form : Form ρ}
    (h : o.place? g key = some (name, form)) : o.Holds g name form := by
  cases o with
  | record r =>
    refine Sign.mem_of_named? (fun c hc => ?_) h
    obtain ⟨field, hfield, rfl⟩ := List.mem_map.mp hc
    exact hfield
  | table r =>
    obtain ⟨-, rfl⟩ := Prod.mk.inj (Option.some.inj h)
    rfl

/-! ## Keys that spell their names -/

namespace Sign

def isDirect : Sign → Bool
  | unit _ _ _ _ _ => false
  | _ => true

theorem named?_eq_some {φ : Type} {key : List Sign} (hkey : ∀ sign ∈ key, sign.isDirect) {found : Text × φ} :
    ∀ {candidates : List (Candidate φ)} {read : Text}, (∀ c ∈ candidates, c.name = read ++ c.due) →
      named? candidates read.length key = some found → found.1 = read ++ Text.lowerAscii (content key) := by
  induction key with
  | nil =>
    intro candidates read h hfound
    cases candidates with
    | nil => cases hfound
    | cons c candidates =>
      simp only [named?, Key.found?, List.head?_cons] at hfound
      split at hfound
      · cases hfound
      next hlength =>
        obtain rfl := Option.some.inj hfound
        have hname := h c List.mem_cons_self
        have hdue : c.due = [] := by
          rw [hname, List.length_append] at hlength
          exact List.length_eq_zero_iff.mp (by omega)
        rw [hname, hdue]
        rfl
  | cons sign rest ih =>
    intro candidates read h hfound
    rw [List.forall_mem_cons] at hkey
    cases sign with
    | plain b hb =>
      have hnarrow : ∀ c ∈ Key.narrow candidates b, c.name = (read ++ [Text.lowerByte b]) ++ c.due := by
        intro c hc
        obtain ⟨c', hc', hsome⟩ := List.mem_filterMap.mp hc
        split at hsome
        next => cases hsome
        next d due hdue =>
          split at hsome
          next hd =>
            obtain rfl := Option.some.inj hsome
            have hname := h c' hc'
            rw [hdue, hd] at hname
            simpa using hname
          next => cases hsome
      have hlength : read.length + 1 = (read ++ [Text.lowerByte b]).length := by simp
      rw [named?, hlength] at hfound
      have hrest := ih hkey.2 hnarrow hfound
      rw [hrest, List.append_assoc]
      rfl
    | short letter b hb => cases hfound
    | unit a b c d hdigits => cases hkey.1

end Sign

namespace ObjectForm

def isRecord : ObjectForm ρ → Bool
  | record _ => true
  | table _ => false

def spelling : ObjectForm ρ → List Sign → Text
  | record _, key => Text.lowerAscii (Sign.content key)
  | table _, key => Sign.content key

def keeps (g : Grammar ρ) : ObjectForm ρ → Text → Bool
  | record r, name => (g r).any fun field => field.1 == name
  | table _, _ => true

theorem spelling_of_place? {o : ObjectForm ρ} {key : List Sign} {name : Text} {form : Form ρ}
    (hkey : o.isRecord → ∀ sign ∈ key, sign.isDirect) (h : o.place? g key = some (name, form)) :
    o.spelling key = name ∧ o.keeps g name = true := by
  cases o with
  | record r =>
    have hcandidates : ∀ c ∈ (g r).map (fun f => (⟨f.1, f.1, f.2⟩ : Candidate (Form ρ))), c.name = [] ++ c.due := by
      intro c hc
      obtain ⟨field, -, rfl⟩ := List.mem_map.mp hc
      rfl
    have hfield : (name, form) ∈ g r := holds_of_place? (o := .record r) h
    exact ⟨(Sign.named?_eq_some (hkey rfl) hcandidates h).symm, List.any_eq_true.mpr ⟨_, hfield, by simp⟩⟩
  | table r =>
    obtain ⟨hname, -⟩ := Prod.mk.inj (Option.some.inj h)
    exact ⟨hname, rfl⟩

end ObjectForm

namespace Script

/-- The keys of a table are distinct, and so are those keys of a record that are fields, regardless of the case of
letters. -/
def Distinct (g : Grammar ρ) (form : Form ρ) (a : Script) : Prop :=
  ∀ x ∈ objects g form a, ((x.2.map x.1.spelling).filter (x.1.keeps g)).Nodup

def Direct (g : Grammar ρ) (form : Form ρ) (a : Script) : Prop :=
  ∀ x ∈ objects g form a, x.1.isRecord → ∀ key ∈ x.2, ∀ sign ∈ key, sign.isDirect

instance (form : Form ρ) (a : Script) : Decidable (Distinct g form a) := inferInstanceAs (Decidable (∀ x ∈ _, _))

instance (form : Form ρ) (a : Script) : Decidable (Direct g form a) := inferInstanceAs (Decidable (∀ x ∈ _, _))

theorem Distinct.apart {form : Form ρ} {a : Script} (h : Distinct g form a) (hdirect : Direct g form a) :
    Apart g form a := by
  intro x hx
  obtain ⟨o, keys⟩ := x
  have hkeys : ∀ key ∈ keys, o.isRecord → ∀ sign ∈ key, sign.isDirect :=
    fun key hkey hrecord => hdirect _ hx hrecord key hkey
  have hsublist : (keys.filterMap fun key => (o.place? g key).map Prod.fst).Sublist
      ((keys.map o.spelling).filter (o.keeps g)) := by
    clear hx
    induction keys with
    | nil => exact .slnil
    | cons key keys ih =>
      rw [List.forall_mem_cons] at hkeys
      have hrest := ih hkeys.2
      cases hplace : o.place? g key with
      | none =>
        rw [List.filterMap_cons_none (by simp [hplace]), List.map_cons, List.filter_cons]
        split
        · exact hrest.cons _
        · exact hrest
      | some place =>
        obtain ⟨name, form⟩ := place
        obtain ⟨hname, hkeeps⟩ := ObjectForm.spelling_of_place? hkeys.1 hplace
        have hkept : o.keeps g (o.spelling key) = true := by rw [hname, hkeeps]
        rw [List.filterMap_cons_some (b := name) (by simp [hplace]), List.map_cons, List.filter_cons_of_pos hkept, hname]
        exact hrest.cons_cons name
  exact (h _ hx).sublist hsublist

def member? (g : Grammar ρ) (o : ObjectForm ρ) (depth : Nat) (m : List Sign × Script) : Option (List (Text × Json)) :=
  match o.place? g m.1 with
  | some (name, form) => (value? g form depth m.2).map fun v => [(name, v)]
  | none => if m.2.Fits depth then some [] else none

theorem members?_cons (o : ObjectForm ρ) (depth : Nat) (m : List Sign × Script) (rest : List (List Sign × Script)) :
    members? g o depth (m :: rest) = (member? g o depth m).bind fun vs => (members? g o depth rest).map (vs ++ ·) := by
  obtain ⟨key, a⟩ := m
  rw [members?, member?]
  cases o.place? g key with
  | none => by_cases hfits : a.Fits depth <;> simp [hfits]
  | some place =>
    obtain ⟨name, form⟩ := place
    simp only
    cases value? g form depth a <;> rfl

theorem members?_append (o : ObjectForm ρ) (depth : Nat) (before after : List (List Sign × Script)) :
    members? g o depth (before ++ after) =
      (members? g o depth before).bind fun vs => (members? g o depth after).map (vs ++ ·) := by
  induction before with
  | nil => simp [members?]
  | cons m before ih =>
    rw [List.cons_append, members?_cons, members?_cons, ih]
    cases member? g o depth m <;> cases members? g o depth before <;> simp [Function.comp_def]

theorem members?_perm (o : ObjectForm ρ) (depth : Nat) {members members' : List (List Sign × Script)}
    (h : members.Perm members') : Option.Rel List.Perm (members? g o depth members) (members? g o depth members') := by
  induction h with
  | nil => exact .some (.refl _)
  | cons m _ ih =>
    rw [members?_cons, members?_cons]
    cases member? g o depth m with
    | none => exact .none
    | some vs =>
      rcases rel_cases ih with ⟨hx, hy⟩ | ⟨x, y, hx, hy, hperm⟩
      · rw [hx, hy]
        exact .none
      · rw [hx, hy]
        exact .some (hperm.append_left vs)
  | swap m m' rest =>
    simp only [members?_cons]
    cases member? g o depth m with
    | none => cases member? g o depth m' <;> exact .none
    | some vs =>
      cases member? g o depth m' with
      | none => exact .none
      | some vs' =>
        cases members? g o depth rest with
        | none => exact .none
        | some rest => exact .some (by simpa using List.perm_append_comm.append_right rest)
  | trans _ _ ih ih' => exact rel_trans (fun _ _ _ h h' => h.trans h') ih ih'

theorem members?_names {o : ObjectForm ρ} {depth : Nat} {members : List (List Sign × Script)} {vs : List (Text × Json)}
    (h : members? g o depth members = some vs) :
    vs.map Prod.fst = (members.map Prod.fst).filterMap (fun key => (o.place? g key).map Prod.fst) ∧
      ∀ v ∈ vs, ∃ form, o.Holds g v.1 form := by
  induction members generalizing vs with
  | nil =>
    obtain rfl := Option.some.inj h
    exact ⟨rfl, by simp⟩
  | cons m members ih =>
    rw [members?_cons] at h
    obtain ⟨head, hhead, h⟩ := Option.bind_eq_some_iff.mp h
    obtain ⟨rest, hrest, rfl⟩ := Option.map_eq_some_iff.mp h
    obtain ⟨hnames, hholds⟩ := ih hrest
    unfold member? at hhead
    cases hplace : o.place? g m.1 with
    | none =>
      simp only [hplace] at hhead
      split at hhead
      · obtain rfl := Option.some.inj hhead
        exact ⟨by simp [hplace, hnames], by simpa using hholds⟩
      · cases hhead
    | some place =>
      obtain ⟨name, form⟩ := place
      simp only [hplace] at hhead
      obtain ⟨v, -, rfl⟩ := Option.map_eq_some_iff.mp hhead
      refine ⟨by simp [hplace, hnames], fun x hx => ?_⟩
      rcases List.mem_append.mp hx with hx | hx
      · obtain rfl := List.mem_singleton.mp hx
        exact ⟨form, ObjectForm.holds_of_place? hplace⟩
      · exact hholds x hx

theorem items?_append (form : Form ρ) (depth : Nat) (before after : List Script) :
    items? g form depth (before ++ after) =
      (items? g form depth before).bind fun vs => (items? g form depth after).map (vs ++ ·) := by
  induction before with
  | nil => simp [items?]
  | cons a before ih =>
    rw [List.cons_append, items?, items?, ih]
    cases value? g form depth a <;> cases items? g form depth before <;> simp [Function.comp_def]

/-! ## Values of reordered scripts -/

section

variable {r : ρ} {o : ObjectForm ρ} {depth : Nat} {key : List Sign} {a b : Script}

theorem alike_members {members members' : List (List Sign × Script)} (h : members.Perm members')
    (hapart : Apart g o.form (object members)) :
    Option.Rel (Alike g o.form) (value? g o.form depth (object members)) (value? g o.form depth (object members')) := by
  rw [value?_object, value?_object]
  split
  · rcases rel_cases (members?_perm (g := g) o (depth + 1) h) with ⟨hx, hy⟩ | ⟨vs, vs', hx, hy, hperm⟩
    · rw [hx, hy]
      exact .none
    · obtain ⟨hnames, hholds⟩ := members?_names hx
      have hnodup : (vs.map Prod.fst).Nodup := hnames ▸ hapart _ (mem_objects_object.mpr (.inl rfl))
      rw [hx, hy]
      exact .some (.members hperm hnodup hholds)
  · exact .none

theorem alike_item {before after : List Script}
    (h : Option.Rel (Alike g (.record r)) (value? g (.record r) (depth + 1) a) (value? g (.record r) (depth + 1) b)) :
    Option.Rel (Alike g (.list r)) (value? g (.list r) depth (array (before ++ a :: after)))
      (value? g (.list r) depth (array (before ++ b :: after))) := by
  rw [value?, value?]
  split
  · rw [items?_append, items?_append, items?, items?]
    cases items? g (.record r) (depth + 1) before with
    | none => exact .none
    | some vs =>
      rcases rel_cases h with ⟨hx, hy⟩ | ⟨v, w, hx, hy, halike⟩
      · rw [hx, hy]
        exact .none
      · rw [hx, hy]
        cases items? g (.record r) (depth + 1) after with
        | none => exact .none
        | some ws => exact .some (.item halike)
  · exact .none

theorem alike_member {before after : List (List Sign × Script)} (hfits : a.Fits (depth + 1) ↔ b.Fits (depth + 1))
    (h : ∀ name form, o.place? g key = some (name, form) →
      Option.Rel (Alike g form) (value? g form (depth + 1) a) (value? g form (depth + 1) b)) :
    Option.Rel (Alike g o.form) (value? g o.form depth (object (before ++ (key, a) :: after)))
      (value? g o.form depth (object (before ++ (key, b) :: after))) := by
  rw [value?_object, value?_object]
  split
  · rw [members?_append, members?_append, members?, members?]
    cases members? g o (depth + 1) before with
    | none => exact .none
    | some vs =>
      cases hplace : o.place? g key with
      | none =>
        simp only [hfits]
        split
        · cases members? g o (depth + 1) after with
          | none => exact .none
          | some ws => exact .some (.refl _ _)
        · exact .none
      | some place =>
        obtain ⟨name, form⟩ := place
        rcases rel_cases (h name form hplace) with ⟨hx, hy⟩ | ⟨v, w, hx, hy, halike⟩
        · simp only [hx, hy]
          exact .none
        · simp only [hx, hy]
          cases members? g o (depth + 1) after with
          | none => exact .none
          | some ws => exact .some (.member (ObjectForm.holds_of_place? hplace) halike)
  · exact .none

end

theorem Reordered.alike {a b : Script} (h : Reordered a b) : ∀ (form : Form ρ) (depth : Nat), Apart g form a →
    Option.Rel (Alike g form) (value? g form depth a) (value? g form depth b) := by
  induction h with
  | members h =>
    intro form depth hapart
    cases form with
    | record r => exact alike_members (o := .record r) h hapart
    | table r => exact alike_members (o := .table r) h hapart
    | _ => exact .none
  | item _ ih =>
    intro form depth hapart
    cases form with
    | list r => exact alike_item (ih (.record r) (depth + 1) hapart.item)
    | _ => exact .none
  | @member _ _ key a b h ih =>
    intro form depth hapart
    have hfits : a.Fits (depth + 1) ↔ b.Fits (depth + 1) := by simp only [Fits, h.height_eq]
    cases form with
    | record r => exact alike_member (o := .record r) hfits fun _ form hplace => ih form (depth + 1) (hapart.member hplace)
    | table r => exact alike_member (o := .table r) hfits fun _ form hplace => ih form (depth + 1) (hapart.member hplace)
    | _ => exact .none
  | trans h _ ih ih' =>
    intro form depth hapart
    exact rel_trans (fun _ _ _ => .trans) (ih form depth hapart) (ih' form depth (hapart.reordered h))

end Script

end RpcBindings.Json
