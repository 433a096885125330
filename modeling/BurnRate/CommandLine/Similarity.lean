/-!
How similar two words are, for advice on mistyped ones.

The measure counts the characters that both words have at nearly the same place, and how many of
those are in another order.
-/

namespace BurnRate.CommandLine

/-- Marks the first unmarked place of a character in a part of a word. `place` is the place of the
first of the marks. -/
def markFirst (c : Char) (low high place : Nat) : List (Char × Bool) → Option (List (Char × Bool))
  | [] => none
  | (d, marked) :: ds =>
    if high ≤ place then none
    else if low ≤ place && c == d && !marked then some ((d, true) :: ds)
    else (markFirst c low high (place + 1) ds).map ((d, marked) :: ·)

/-- The characters of the first word that have a partner in the second one, and the second word
with its partners marked. -/
def partners (range : Nat) : Nat → List Char → List (Char × Bool) → List Char × List (Char × Bool)
  | _, [], bs => ([], bs)
  | i, c :: cs, bs =>
    match markFirst c (i - range) (i + range + 1) 0 bs with
    | some bs =>
      let (found, bs) := partners range (i + 1) cs bs
      (c :: found, bs)
    | none => partners range (i + 1) cs bs

/-- Similarity from 0 to 1. -/
def similarity (a b : String) : Float :=
  let as := a.toList
  let bs := b.toList
  if as.isEmpty && bs.isEmpty then 1
  else
    let range := max as.length bs.length / 2 - 1
    let (found, marked) := partners range 0 as (bs.map (·, false))
    let others := (marked.filter (·.2)).map (·.1)
    let moved := ((found.zip others).countP fun (c, d) => c != d) / 2
    let m := found.length
    if m = 0 then 0
    else
      (m.toFloat / as.length.toFloat + m.toFloat / bs.length.toFloat
        + (m - moved).toFloat / m.toFloat) / 3

/-- Candidates that resemble a word, the best one last. -/
def similar (word : String) (candidates : List String) : List String :=
  let ranked := candidates.foldl (fun (ranked : List (Float × String)) c =>
    let s := similarity word c
    if 0.7 < s then
      ranked.takeWhile (·.1 < s) ++ (s, c) :: ranked.dropWhile (·.1 < s)
    else ranked) []
  ranked.map (·.2)

end BurnRate.CommandLine
