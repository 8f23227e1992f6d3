import MediaLink.Proofs.Session

namespace MediaLink

inductive Request where
  | resolve (path : List Char)
  | takeBindings

inductive Answer where
  | name (name : List Char)
  | bindings (bs : List Binding)
deriving DecidableEq

def serve {σ : Type} (answer : σ → Request → Answer × σ) : σ → List Request → List Answer × σ
  | s, [] => ([], s)
  | s, r :: rs =>
    ((answer s r).1 :: (serve answer (answer s r).2 rs).1, (serve answer (answer s r).2 rs).2)

namespace Registry

def answer (r : Registry) : Request → Answer × Registry
  | .resolve path => (.name (r.resolve path).1, (r.resolve path).2)
  | .takeBindings => (.bindings r.takeBindings.1, r.takeBindings.2)

end Registry

namespace Session

def answer (bs : List Binding) : Request → Answer × List Binding
  | .resolve path => (.name (resolve bs path).1, (resolve bs path).2)
  | .takeBindings => (.bindings bs, [])

end Session

namespace Registry

theorem valid_answer {r : Registry} (h : r.Valid) (req : Request) : (r.answer req).2.Valid := by
  cases req with
  | resolve path => exact valid_resolve h path
  | takeBindings => exact valid_empty

theorem valid_serve {r : Registry} (h : r.Valid) (reqs : List Request) :
    (serve answer r reqs).2.Valid := by
  induction reqs generalizing r with
  | nil => exact h
  | cons req reqs ih => exact ih (valid_answer h req)

example : (serve answer {} (["./a-b", "./a_b", "./a_b_1", "./a-b"].map (.resolve ·.toList))).1 =
    ["a_b", "a_b_1", "a_b_1_1", "a_b"].map fun s => .name (s.toList ++ Binding.nameEnding) := by
  decide +kernel

end Registry

end MediaLink
