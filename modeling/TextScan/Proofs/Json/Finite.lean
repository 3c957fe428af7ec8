import TextScan.Json.Basic

namespace TextScan.Json

inductive Finite : Json → Prop
  | null : Finite null
  | bool (b : Bool) : Finite (bool b)
  | number {x : Binary64} : x.isFinite = true → Finite (number x)
  | string (s : Text) : Finite (string s)
  | array {vs : List Json} : (∀ v ∈ vs, Finite v) → Finite (array vs)
  | object {ms : List (Text × Json)} : (∀ m ∈ ms, Finite m.2) → Finite (object ms)

mutual

def norm : Json → Json
  | null => null
  | bool b => bool b
  | number x => if x.isFinite then number x else null
  | string s => string s
  | array vs => array (normItems vs)
  | object ms => object (normMembers ms)

def normItems : List Json → List Json
  | [] => []
  | v :: vs => norm v :: normItems vs

def normMembers : List (Text × Json) → List (Text × Json)
  | [] => []
  | (name, v) :: ms => (name, norm v) :: normMembers ms

end

theorem normItems_eq_map (vs : List Json) : normItems vs = vs.map norm := by
  induction vs with
  | nil => rw [normItems, List.map_nil]
  | cons v vs ih => rw [normItems, List.map_cons, ih]

theorem normMembers_eq_map (ms : List (Text × Json)) :
    normMembers ms = ms.map fun m => (m.1, norm m.2) := by
  induction ms with
  | nil => rw [normMembers, List.map_nil]
  | cons m ms ih => rw [normMembers, List.map_cons, ih]

theorem Finite.norm_eq {v : Json} (h : Finite v) : norm v = v := by
  induction h with
  | null => rw [norm]
  | bool b => rw [norm]
  | number hx => rw [norm, if_pos hx]
  | string s => rw [norm]
  | @array vs _ ih =>
    have hmap : vs.map norm = vs.map id := List.map_congr_left ih
    rw [norm, normItems_eq_map, hmap, List.map_id]
  | @object ms _ ih =>
    have hmap : (ms.map fun m => (m.1, norm m.2)) = ms.map id :=
      List.map_congr_left fun m hm => by rw [ih m hm]; rfl
    rw [norm, normMembers_eq_map, hmap, List.map_id]

end TextScan.Json
