import HeaderFlattening.Proofs.Ledger
import HeaderFlattening.Proofs.Membership
import HeaderFlattening.Proofs.Parameters

/-!
What can be relied on in a report, whatever the lines were and wherever some of them failed.
-/

set_option autoImplicit false
namespace HeaderFlattening.Conversion

/-- After any lines, whether they succeeded or not: no enum value and no member of the class at hand is
there twice or empty, and neither a further line nor the end of the input takes back or reorders what is
recorded. A record of a function comes from the words read so far, a name and what stands between the
parentheses behind it, with the identifiers that end there in the order in which they first occur. A
record of a class comes from a class that is opened and later closed, and each of its members is declared
by a line in between. Remarks are about lines that were read, in their order. Bodies of functions may be
of any depth here, and `function_depth_wellFormed` bounds those whose depth fits in 32 bits. -/
theorem report_reliable (config : Config) (room : Option Nat) (ls : List Text) :
    let start : State := { sink := { room } }
    let s := runLines config ls start
    (s.enumValues.Valid ∧ s.memberNames.Valid) ∧
    ((∀ raw, s.Extends (stateAfter (processLine config raw) s)) ∧ s.Extends (stateAfter finish s)) ∧
    (∀ r ∈ s.functions, r.FromWords (allWordsRead config ls start) ∧ r.params.Nodup ∧
      ∀ p ∈ r.params, p.isIdentifier = true) ∧
    (∀ r ∈ s.classes, FromLines config start ls r ∧ r.members.Nodup ∧ [] ∉ r.members) ∧
    s.lineNumber = ls.length ∧ Dated ls.length s.diagnostics ∧
      Dated ls.length (stateAfter finish s).diagnostics := by
  intro start s
  have reachable : Reachable config room s := reachable_runLines config room ls .start
  have clean := clean_reachable reachable
  have number : s.lineNumber = ls.length :=
    (lineNumber_runLines config ls start).trans (Nat.zero_add _)
  have tracks : s.functionBooks.Tracks (allWordsRead config ls start) :=
    tracks_runLines config ls (tracks_start room)
  have belongs := belongs_runLines config room ls
  obtain ⟨ends, cleanEnd⟩ := keeping_finish reachable
  have sameNumber : (stateAfter finish s).lineNumber = ls.length :=
    (steady_finish s).grows.lineNumber.trans number
  refine ⟨⟨clean.enumValues, clean.memberNames⟩,
    ⟨fun raw => (keeping_processLine config raw clean).keeps, ends⟩, fun r mem => ?_, fun r mem => ?_,
    number, number ▸ clean.dated, sameNumber ▸ cleanEnd.dated⟩
  · have fromWords := tracks.records r mem
    exact ⟨fromWords, fromWords.params_valid⟩
  · exact ⟨belongs.records r mem, clean.members r mem⟩

/-- A class with a data member and a method that names one parameter twice. -/
def smallClass : List Text :=
  ["class A \x7b\n".toList, "int x;\n".toList, "int f(int a, int b,\n".toList, "  int a);\n".toList,
    "\x7d;\n".toList]

theorem report_reliable_smallClass :
    let s := runLines {} smallClass {}
    (s.functions = [⟨['f'], [['a'], ['b']]⟩] ∧ s.classes = [⟨['A'], [['x']]⟩]) ∧
      (∀ r ∈ s.functions, r.FromWords (allWordsRead {} smallClass {})) ∧
      ∀ r ∈ s.classes, FromLines {} {} smallClass r := by
  intro s
  obtain ⟨-, -, functions, classes, -⟩ := report_reliable {} none smallClass
  refine ⟨?_, fun r mem => (functions r mem).1, fun r mem => (classes r mem).1⟩
  decide +kernel

end HeaderFlattening.Conversion
