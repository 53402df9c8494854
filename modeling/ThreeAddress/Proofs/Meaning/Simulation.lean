import ThreeAddress.Proofs.Meaning.Straight

/-!
Execution of the code of a statement and the run of the statement itself, each obtained from the
other. A run of the statement says where execution gets to; an execution that ends is taken apart
into runs of the parts, by induction on its length.
-/

set_option autoImplicit false

namespace ThreeAddress

variable {V : Type} {meaning : Meaning V} {code : List Instruction}

/-- The code of the statement stands at the position, and the exits around it lead somewhere. -/
structure Stmt.Placed (code : List Instruction) (stmt : Stmt) (exits : List Label) (supply : Supply)
    (pos : Nat) : Prop where
  stands : Stands code pos (stmt.code exits supply)
  plain : stmt.Plain
  nested : stmt.Nested !exits.isEmpty
  resolved : ∀ label ∈ exits, ∃ pc, target? code label = some pc

/-- Where execution is after a statement: at its end, or at the exit of the loop around it. -/
def Exit.Leads (code : List Instruction) (exits : List Label) (stop : Nat) : Exit → Nat → Prop
  | .normal, pc => pc = stop
  | .broke, pc => ∃ label, exits.head? = some label ∧ target? code label = some pc

namespace Exit.Leads

variable {exits : List Label} {stop later pc : Nat} {exit : Exit}

/-- Whoever goes on from the end of a part gets to the end of the whole, or to the same exit. -/
theorem onward {steps more : Nat} {start : Machine V} {memory : Store V}
    (leads : exit.Leads code exits stop pc)
    (ran : Machine.run meaning code steps start = some ⟨pc, memory⟩)
    (goes : Machine.run meaning code more ⟨stop, memory⟩ = some ⟨later, memory⟩) :
    ∃ steps last, Machine.run meaning code steps start = some ⟨last, memory⟩ ∧
      exit.Leads code exits later last := by
  cases exit with
  | normal =>
      rw [leads] at ran
      exact ⟨steps + more, later, Machine.run_trans ran goes, rfl⟩
  | broke => exact ⟨steps, pc, ran, leads⟩

/-- A break in the body of a loop leads to the exit of that loop. -/
theorem eq_of_broke {label : Label} {exitPos : Nat}
    (leads : Exit.broke.Leads code (label :: exits) stop pc)
    (target : target? code label = some exitPos) : pc = exitPos := by
  obtain ⟨innermost, same, found⟩ := leads
  cases same
  exact Option.some.inj (found.symm.trans target)

end Exit.Leads

namespace Stmt.Placed

open Machine

variable {exits : List Label} {supply : Supply} {pos : Nat} {first second body other : Stmt}
  {cond : Expr}

theorem seq (placed : Placed code (.seq first second) exits supply pos) :
    Placed code first exits supply pos ∧
      Placed code second exits (first.after supply) (pos + (first.code exits supply).length) :=
  ⟨⟨placed.stands.append_left, placed.plain.1, placed.nested.1, placed.resolved⟩,
    ⟨placed.stands.append_right, placed.plain.2, placed.nested.2, placed.resolved⟩⟩

theorem block (placed : Placed code (.block body) exits supply pos) :
    Placed code body exits supply.enter pos :=
  ⟨placed.stands, placed.plain, placed.nested, placed.resolved⟩

/-- A conditional: its test leads to the branch or past it. -/
theorem ifThen (placed : Placed code (.ifThen cond body) exits supply pos)
    (unique : (labelsOf code).Nodup) (meaning : Meaning V) :
    ∃ bodyPos inner, Placed code body exits inner bodyPos ∧
      Tests meaning code cond pos bodyPos (bodyPos + (body.code exits inner).length) ∧
      Hops meaning code (bodyPos + (body.code exits inner).length)
        (pos + ((Stmt.ifThen cond body).code exits supply).length) := by
  have parts := placed.stands.append_right.tail
  have label := parts.append_right
  refine ⟨_, _, ⟨parts.append_left, placed.plain.2, placed.nested, placed.resolved⟩,
    tests_ifFalse meaning placed.stands placed.plain.1 (label.target unique), ?_⟩
  have stop : pos + ((Stmt.ifThen cond body).code exits supply).length =
      pos + (cond.code supply.temporaries).length + 1 +
        (body.code exits ((supply.spend cond.operators).mark 1)).length + 1 := by
    simp only [Stmt.code, List.length_append, List.length_cons, List.length_nil]
    omega
  rw [stop]
  exact hops_label meaning label

/-- A conditional with two branches: the first one jumps over the second. -/
theorem ifElse (placed : Placed code (.ifElse cond body other) exits supply pos)
    (unique : (labelsOf code).Nodup) (meaning : Meaning V) :
    ∃ bodyPos inner otherPos outer, Placed code body exits inner bodyPos ∧
      Placed code other exits outer (otherPos + 1) ∧
      Tests meaning code cond pos bodyPos otherPos ∧ Hops meaning code otherPos (otherPos + 1) ∧
      Hops meaning code (bodyPos + (body.code exits inner).length)
        (otherPos + 1 + (other.code exits outer).length) ∧
      Hops meaning code (otherPos + 1 + (other.code exits outer).length)
        (pos + ((Stmt.ifElse cond body other).code exits supply).length) := by
  have parts := placed.stands.append_right.tail
  have jump := parts.append_right
  have label := jump.tail
  have second := label.tail
  have finish := second.append_right
  refine ⟨_, _, _, _,
    ⟨parts.append_left, placed.plain.2.1, placed.nested.1, placed.resolved⟩,
    ⟨second.append_left, placed.plain.2.2, placed.nested.2, placed.resolved⟩,
    tests_ifFalse meaning placed.stands placed.plain.1 (label.target unique),
    hops_label meaning label, hops_goto meaning jump (finish.target unique), ?_⟩
  have stop : pos + ((Stmt.ifElse cond body other).code exits supply).length =
      pos + (cond.code supply.temporaries).length + 1 +
        (body.code exits ((supply.spend cond.operators).mark 1)).length + 1 + 1 +
        (other.code exits
          ((body.after ((supply.spend cond.operators).mark 1)).mark 1)).length + 1 := by
    simp only [Stmt.code, List.length_append, List.length_cons, List.length_nil]
    omega
  rw [stop]
  exact hops_label meaning finish

/-- A loop with its test in front: from the end of its body execution comes back to the start. -/
theorem whileDo (placed : Placed code (.whileDo cond body) exits supply pos)
    (unique : (labelsOf code).Nodup) (meaning : Meaning V) :
    ∃ exit bodyPos inner exitPos, Placed code body (exit :: exits) inner bodyPos ∧
      Hops meaning code pos (pos + 1) ∧ Tests meaning code cond (pos + 1) bodyPos exitPos ∧
      Hops meaning code (bodyPos + (body.code (exit :: exits) inner).length) pos ∧
      target? code exit = some exitPos ∧
      Hops meaning code exitPos
        (pos + ((Stmt.whileDo cond body).code exits supply).length) := by
  have test := placed.stands.tail
  have parts := test.append_right.tail
  have back := parts.append_right
  have exitLabel := back.tail
  have target := exitLabel.target unique
  refine ⟨_, _, _, _, ⟨parts.append_left, placed.plain.2, placed.nested, ?_⟩,
    hops_label meaning placed.stands, tests_ifFalse meaning test placed.plain.1 target,
    hops_goto meaning back (placed.stands.target unique), target, ?_⟩
  · intro label member
    rcases List.mem_cons.mp member with rfl | outer
    · exact ⟨_, target⟩
    · exact placed.resolved label outer
  · have stop : pos + ((Stmt.whileDo cond body).code exits supply).length =
        pos + 1 + (cond.code supply.temporaries).length + 1 +
          (body.code (⟨supply.labels + 1⟩ :: exits)
            ((supply.mark 2).spend cond.operators)).length + 1 + 1 := by
      simp only [Stmt.code, List.length_append, List.length_cons, List.length_nil]
      omega
    rw [stop]
    exact hops_label meaning exitLabel

/-- A loop with its test at the end. -/
theorem doWhile (placed : Placed code (.doWhile body cond) exits supply pos)
    (unique : (labelsOf code).Nodup) (meaning : Meaning V) :
    ∃ exit inner exitPos, Placed code body (exit :: exits) inner (pos + 1) ∧
      Hops meaning code pos (pos + 1) ∧
      Tests meaning code cond (pos + 1 + (body.code (exit :: exits) inner).length) pos exitPos ∧
      target? code exit = some exitPos ∧
      Hops meaning code exitPos
        (pos + ((Stmt.doWhile body cond).code exits supply).length) := by
  have parts := placed.stands.tail
  have test := parts.append_right
  have exitLabel := test.append_right.tail
  have target := exitLabel.target unique
  refine ⟨_, _, _, ⟨parts.append_left, placed.plain.1, placed.nested, ?_⟩,
    hops_label meaning placed.stands,
    tests_ifTrue meaning test placed.plain.2 (placed.stands.target unique), target, ?_⟩
  · intro label member
    rcases List.mem_cons.mp member with rfl | outer
    · exact ⟨_, target⟩
    · exact placed.resolved label outer
  · have stop : pos + ((Stmt.doWhile body cond).code exits supply).length =
        pos + 1 + (body.code (⟨supply.labels + 1⟩ :: exits) (supply.mark 2)).length +
          (cond.code (body.after (supply.mark 2)).temporaries).length + 1 + 1 := by
      simp only [Stmt.code, List.length_append, List.length_cons, List.length_nil]
      omega
    rw [stop]
    exact hops_label meaning exitLabel

/-- A break jumps to the exit of the innermost loop. -/
theorem leave (placed : Placed code .leave exits supply pos) (meaning : Meaning V) :
    ∃ label pc, exits.head? = some label ∧ target? code label = some pc ∧
      Hops meaning code pos pc := by
  cases exits with
  | nil => cases placed.nested
  | cons label rest =>
      obtain ⟨pc, target⟩ := placed.resolved label List.mem_cons_self
      exact ⟨label, pc, rfl, target, hops_goto meaning placed.stands target⟩

end Stmt.Placed

namespace Stmt

open Machine

variable {stmt : Stmt} {exits : List Label} {supply : Supply} {pos : Nat}
  {store final memory : Store V} {exit : Exit}

/-- Execution gets to where the run of a statement ends, with the same values. -/
theorem Runs.executed (unique : (labelsOf code).Nodup) (runs : stmt.Runs meaning store exit final)
    (placed : Placed code stmt exits supply pos) (agrees : store.Agrees memory) :
    ∃ steps pc after, run meaning code steps ⟨pos, memory⟩ = some ⟨pc, after⟩ ∧
      exit.Leads code exits (pos + (stmt.code exits supply).length) pc ∧ final.Agrees after := by
  induction runs generalizing exits supply pos memory with
  | skip store => exact ⟨0, pos, memory, rfl, rfl, agrees⟩
  | declare name store => exact ⟨0, pos, memory, rfl, rfl, agrees⟩
  | seq first second store middle final exit _ _ firstIh secondIh =>
      obtain ⟨firstPlaced, secondPlaced⟩ := placed.seq
      obtain ⟨steps, pc, between, firstRun, rfl, still⟩ := firstIh firstPlaced agrees
      obtain ⟨more, last, after, secondRun, leads, ends⟩ := secondIh secondPlaced still
      refine ⟨steps + more, last, after, run_trans firstRun secondRun, ?_, ends⟩
      simpa only [Stmt.code, List.length_append, Nat.add_assoc] using leads
  | seqBroke first second store final _ firstIh =>
      exact firstIh placed.seq.1 agrees
  | assign place value store =>
      obtain ⟨after, run, ends⟩ := run_assign meaning placed.stands placed.plain.2 agrees
      refine ⟨_, _, after, run, ?_, ends⟩
      simp only [Exit.Leads, Stmt.code, List.length_append, List.length_singleton, Nat.add_assoc]
  | ifThenTrue cond body store final exit test _ ih =>
      obtain ⟨bodyPos, inner, bodyPlaced, tests, past⟩ := placed.ifThen unique meaning
      obtain ⟨steps, between, still, testRun⟩ := tests.yes agrees test
      obtain ⟨more, pc, after, bodyRun, leads, ends⟩ := ih bodyPlaced still
      obtain ⟨whole, last, ran, leads⟩ := leads.onward (run_trans testRun bodyRun) (past after)
      exact ⟨whole, last, after, ran, leads, ends⟩
  | ifThenFalse cond body store test =>
      obtain ⟨bodyPos, inner, _, tests, past⟩ := placed.ifThen unique meaning
      obtain ⟨steps, after, still, testRun⟩ := tests.no agrees test
      exact ⟨_, _, after, run_trans testRun (past after), rfl, still⟩
  | ifElseTrue cond body other store final exit test _ ih =>
      obtain ⟨bodyPos, inner, otherPos, outer, bodyPlaced, _, tests, _, across, past⟩ :=
        placed.ifElse unique meaning
      obtain ⟨steps, between, still, testRun⟩ := tests.yes agrees test
      obtain ⟨more, pc, after, bodyRun, leads, ends⟩ := ih bodyPlaced still
      obtain ⟨whole, last, ran, leads⟩ := leads.onward (run_trans testRun bodyRun)
        (run_trans (across after) (past after))
      exact ⟨whole, last, after, ran, leads, ends⟩
  | ifElseFalse cond body other store final exit test _ ih =>
      obtain ⟨bodyPos, inner, otherPos, outer, _, otherPlaced, tests, onto, _, past⟩ :=
        placed.ifElse unique meaning
      obtain ⟨steps, between, still, testRun⟩ := tests.no agrees test
      obtain ⟨more, pc, after, otherRun, leads, ends⟩ := ih otherPlaced still
      have entered := run_trans (run_trans testRun (onto between)) otherRun
      obtain ⟨whole, last, ran, leads⟩ := leads.onward entered (past after)
      exact ⟨whole, last, after, ran, leads, ends⟩
  | whileFalse cond body store test =>
      obtain ⟨exit, bodyPos, inner, exitPos, _, enter, tests, _, _, past⟩ :=
        placed.whileDo unique meaning
      obtain ⟨steps, after, still, testRun⟩ := tests.no agrees test
      exact ⟨_, _, after, run_trans (run_trans (enter memory) testRun) (past after), rfl, still⟩
  | whileTrue cond body store middle final test _ _ bodyIh againIh =>
      obtain ⟨exit, bodyPos, inner, exitPos, bodyPlaced, enter, tests, back, _, _⟩ :=
        placed.whileDo unique meaning
      obtain ⟨steps, between, still, testRun⟩ := tests.yes agrees test
      obtain ⟨more, pc, after, bodyRun, rfl, ends⟩ := bodyIh bodyPlaced still
      obtain ⟨rest, last, done, again, leads, agree⟩ := againIh placed ends
      have through := run_trans (run_trans (enter memory) testRun) bodyRun
      exact ⟨_, last, done, run_trans (run_trans through (back after)) again, leads, agree⟩
  | whileBroke cond body store final test _ bodyIh =>
      obtain ⟨exit, bodyPos, inner, exitPos, bodyPlaced, enter, tests, _, target, past⟩ :=
        placed.whileDo unique meaning
      obtain ⟨steps, between, still, testRun⟩ := tests.yes agrees test
      obtain ⟨more, pc, after, bodyRun, leads, ends⟩ := bodyIh bodyPlaced still
      obtain rfl := leads.eq_of_broke target
      have through := run_trans (run_trans (enter memory) testRun) bodyRun
      exact ⟨_, _, after, run_trans through (past after), rfl, ends⟩
  | doTrue body cond store middle final _ test _ bodyIh againIh =>
      obtain ⟨exit, inner, exitPos, bodyPlaced, enter, tests, _, _⟩ := placed.doWhile unique meaning
      obtain ⟨steps, pc, between, bodyRun, rfl, still⟩ := bodyIh bodyPlaced agrees
      obtain ⟨more, after, ends, testRun⟩ := tests.yes still test
      obtain ⟨rest, last, done, again, leads, agree⟩ := againIh placed ends
      have tested := run_trans (run_trans (enter memory) bodyRun) testRun
      exact ⟨_, last, done, run_trans tested again, leads, agree⟩
  | doFalse body cond store final _ test bodyIh =>
      obtain ⟨exit, inner, exitPos, bodyPlaced, enter, tests, _, past⟩ :=
        placed.doWhile unique meaning
      obtain ⟨steps, pc, between, bodyRun, rfl, still⟩ := bodyIh bodyPlaced agrees
      obtain ⟨more, after, ends, testRun⟩ := tests.no still test
      have tested := run_trans (run_trans (enter memory) bodyRun) testRun
      exact ⟨_, _, after, run_trans tested (past after), rfl, ends⟩
  | doBroke body cond store final _ bodyIh =>
      obtain ⟨exit, inner, exitPos, bodyPlaced, enter, _, target, past⟩ :=
        placed.doWhile unique meaning
      obtain ⟨steps, pc, after, bodyRun, leads, ends⟩ := bodyIh bodyPlaced agrees
      obtain rfl := leads.eq_of_broke target
      exact ⟨_, _, after, run_trans (run_trans (enter memory) bodyRun) (past after), rfl, ends⟩
  | leave store =>
      obtain ⟨label, pc, innermost, target, jump⟩ := placed.leave meaning
      exact ⟨1, pc, memory, jump memory, ⟨label, innermost, target⟩, agrees⟩
  | block body store final exit _ ih => exact ih placed.block agrees

/-- An execution that ends within the limit passes through a run of the statement on its way: it gets
to where that run ends, with the same values. -/
def Completes (meaning : Meaning V) (code : List Instruction) (limit : Nat) (stmt : Stmt) : Prop :=
  ∀ {exits : List Label} {supply : Supply} {pos steps : Nat} {store memory : Store V},
    Placed code stmt exits supply pos → store.Agrees memory → steps ≤ limit →
    Finishes meaning code steps ⟨pos, memory⟩ →
    ∃ taken pc after exit final, run meaning code taken ⟨pos, memory⟩ = some ⟨pc, after⟩ ∧
      exit.Leads code exits (pos + (stmt.code exits supply).length) pc ∧
      stmt.Runs meaning store exit final ∧ final.Agrees after

namespace Completes

variable {limit : Nat} {first second body other : Stmt} {cond : Expr}

theorem seq (one : Completes meaning code limit first) (two : Completes meaning code limit second) :
    Completes meaning code limit (.seq first second) := by
  intro exits supply pos steps store memory placed agrees bound finishes
  obtain ⟨firstPlaced, secondPlaced⟩ := placed.seq
  obtain ⟨taken, pc, between, exit, middle, firstRun, leads, runs, still⟩ :=
    one firstPlaced agrees bound finishes
  cases exit with
  | broke =>
      exact ⟨taken, pc, between, .broke, middle, firstRun, leads, .seqBroke _ _ _ _ runs, still⟩
  | normal =>
      rw [leads] at firstRun
      obtain ⟨early, left⟩ := finishes.rest firstRun
      obtain ⟨more, last, after, exit, final, secondRun, leads, also, ends⟩ :=
        two secondPlaced still (by omega) left
      refine ⟨taken + more, last, after, exit, final, run_trans firstRun secondRun, ?_,
        .seq _ _ _ middle _ _ runs also, ends⟩
      simpa only [Stmt.code, List.length_append, Nat.add_assoc] using leads

theorem assign (place : String) (value : Expr) :
    Completes meaning code limit (.assign place value) := by
  intro exits supply pos steps store memory placed agrees _ _
  obtain ⟨after, run, ends⟩ := run_assign meaning placed.stands placed.plain.2 agrees
  refine ⟨_, _, after, .normal, _, run, ?_, .assign place value store, ends⟩
  simp only [Exit.Leads, Stmt.code, List.length_append, List.length_singleton, Nat.add_assoc]

theorem ifThen (unique : (labelsOf code).Nodup) (inner : Completes meaning code limit body) :
    Completes meaning code limit (.ifThen cond body) := by
  intro exits supply pos steps store memory placed agrees bound finishes
  obtain ⟨bodyPos, _, bodyPlaced, tests, past⟩ := placed.ifThen unique meaning
  cases test : meaning.truth (cond.eval meaning store) with
  | false =>
      obtain ⟨taken, between, still, testRun⟩ := tests.no agrees test
      exact ⟨_, _, between, .normal, store, run_trans testRun (past between), rfl,
        .ifThenFalse cond body store test, still⟩
  | true =>
      obtain ⟨taken, between, still, testRun⟩ := tests.yes agrees test
      obtain ⟨early, left⟩ := finishes.rest testRun
      obtain ⟨more, pc, after, exit, final, bodyRun, leads, runs, ends⟩ :=
        inner bodyPlaced still (by omega) left
      obtain ⟨whole, last, ran, leads⟩ := leads.onward (run_trans testRun bodyRun) (past after)
      exact ⟨whole, last, after, exit, final, ran, leads,
        .ifThenTrue cond body store final exit test runs, ends⟩

theorem ifElse (unique : (labelsOf code).Nodup) (inner : Completes meaning code limit body)
    (outer : Completes meaning code limit other) :
    Completes meaning code limit (.ifElse cond body other) := by
  intro exits supply pos steps store memory placed agrees bound finishes
  obtain ⟨bodyPos, _, otherPos, _, bodyPlaced, otherPlaced, tests, onto, across, past⟩ :=
    placed.ifElse unique meaning
  cases test : meaning.truth (cond.eval meaning store) with
  | false =>
      obtain ⟨taken, between, still, testRun⟩ := tests.no agrees test
      have entered := run_trans testRun (onto between)
      obtain ⟨early, left⟩ := finishes.rest entered
      obtain ⟨more, pc, after, exit, final, otherRun, leads, runs, ends⟩ :=
        outer otherPlaced still (by omega) left
      obtain ⟨whole, last, ran, leads⟩ := leads.onward (run_trans entered otherRun) (past after)
      exact ⟨whole, last, after, exit, final, ran, leads,
        .ifElseFalse cond body other store final exit test runs, ends⟩
  | true =>
      obtain ⟨taken, between, still, testRun⟩ := tests.yes agrees test
      obtain ⟨early, left⟩ := finishes.rest testRun
      obtain ⟨more, pc, after, exit, final, bodyRun, leads, runs, ends⟩ :=
        inner bodyPlaced still (by omega) left
      obtain ⟨whole, last, ran, leads⟩ := leads.onward (run_trans testRun bodyRun)
        (run_trans (across after) (past after))
      exact ⟨whole, last, after, exit, final, ran, leads,
        .ifElseTrue cond body other store final exit test runs, ends⟩

/-- What is left of the execution after one round of a loop is shorter. -/
theorem whileDo (unique : (labelsOf code).Nodup) (inner : Completes meaning code limit body)
    (earlier : ∀ fewer < limit, Completes meaning code fewer (.whileDo cond body)) :
    Completes meaning code limit (.whileDo cond body) := by
  intro exits supply pos steps store memory placed agrees bound finishes
  obtain ⟨exit, bodyPos, _, exitPos, bodyPlaced, enter, tests, back, target, past⟩ :=
    placed.whileDo unique meaning
  cases test : meaning.truth (cond.eval meaning store) with
  | false =>
      obtain ⟨taken, between, still, testRun⟩ := tests.no agrees test
      have entered := run_trans (enter memory) testRun
      exact ⟨_, _, between, .normal, store, run_trans entered (past between), rfl,
        .whileFalse cond body store test, still⟩
  | true =>
      obtain ⟨taken, between, still, testRun⟩ := tests.yes agrees test
      have entered := run_trans (enter memory) testRun
      obtain ⟨early, left⟩ := finishes.rest entered
      obtain ⟨more, pc, after, how, middle, bodyRun, leads, runs, ends⟩ :=
        inner bodyPlaced still (by omega) left
      have through := run_trans entered bodyRun
      cases how with
      | broke =>
          obtain rfl := leads.eq_of_broke target
          exact ⟨_, _, after, .normal, middle, run_trans through (past after), rfl,
            .whileBroke cond body store middle test runs, ends⟩
      | normal =>
          rw [leads] at through
          have round := run_trans through (back after)
          obtain ⟨sooner, rest⟩ := finishes.rest round
          obtain ⟨others, last, done, how, final, again, leads, also, agree⟩ :=
            earlier (steps - (1 + taken + more + 1)) (by omega) placed ends (Nat.le_refl _) rest
          cases how with
          | broke => cases also
          | normal =>
              exact ⟨_, last, done, .normal, final, run_trans round again, leads,
                .whileTrue cond body store middle final test runs also, agree⟩

theorem doWhile (unique : (labelsOf code).Nodup) (inner : Completes meaning code limit body)
    (earlier : ∀ fewer < limit, Completes meaning code fewer (.doWhile body cond)) :
    Completes meaning code limit (.doWhile body cond) := by
  intro exits supply pos steps store memory placed agrees bound finishes
  obtain ⟨exit, _, exitPos, bodyPlaced, enter, tests, target, past⟩ :=
    placed.doWhile unique meaning
  obtain ⟨early, left⟩ := finishes.rest (enter memory)
  obtain ⟨more, pc, between, how, middle, bodyRun, leads, runs, still⟩ :=
    inner bodyPlaced agrees (by omega) left
  have through := run_trans (enter memory) bodyRun
  cases how with
  | broke =>
      obtain rfl := leads.eq_of_broke target
      exact ⟨_, _, between, .normal, middle, run_trans through (past between), rfl,
        .doBroke body cond store middle runs, still⟩
  | normal =>
      rw [leads] at through
      cases test : meaning.truth (cond.eval meaning middle) with
      | false =>
          obtain ⟨taken, after, ends, testRun⟩ := tests.no still test
          have tested := run_trans through testRun
          exact ⟨_, _, after, .normal, middle, run_trans tested (past after), rfl,
            .doFalse body cond store middle runs test, ends⟩
      | true =>
          obtain ⟨taken, after, ends, testRun⟩ := tests.yes still test
          have tested := run_trans through testRun
          obtain ⟨sooner, rest⟩ := finishes.rest tested
          obtain ⟨others, last, done, how, final, again, leads, also, agree⟩ :=
            earlier (steps - (1 + more + taken)) (by omega) placed ends (Nat.le_refl _) rest
          cases how with
          | broke => cases also
          | normal =>
              exact ⟨_, last, done, .normal, final, run_trans tested again, leads,
                .doTrue body cond store middle final runs test also, agree⟩

theorem leave : Completes meaning code limit .leave := by
  intro exits supply pos steps store memory placed agrees _ _
  obtain ⟨label, pc, innermost, target, jump⟩ := placed.leave meaning
  exact ⟨1, pc, memory, .broke, store, jump memory, ⟨label, innermost, target⟩, .leave store, agrees⟩

theorem block (inner : Completes meaning code limit body) :
    Completes meaning code limit (.block body) := by
  intro exits supply pos steps store memory placed agrees bound finishes
  obtain ⟨taken, pc, after, exit, final, run, leads, runs, ends⟩ :=
    inner placed.block agrees bound finishes
  exact ⟨taken, pc, after, exit, final, run, leads, .block body store final exit runs, ends⟩

end Completes

/-- Every execution that ends passes through a run of each statement on its way. The outer induction
is on the length of the execution, for the sake of loops, and the inner one on the statement. -/
theorem completes (unique : (labelsOf code).Nodup) (meaning : Meaning V) (limit : Nat)
    (stmt : Stmt) : Completes meaning code limit stmt := by
  induction limit using Nat.strongRecOn generalizing stmt with
  | ind limit earlier =>
      induction stmt with
      | skip =>
          intro exits supply pos steps store memory _ agrees _ _
          exact ⟨0, pos, memory, .normal, store, rfl, rfl, .skip store, agrees⟩
      | declare name =>
          intro exits supply pos steps store memory _ agrees _ _
          exact ⟨0, pos, memory, .normal, store, rfl, rfl, .declare name store, agrees⟩
      | seq first second one two => exact Completes.seq one two
      | assign place value => exact Completes.assign place value
      | ifThen cond body inner => exact Completes.ifThen unique inner
      | ifElse cond body other inner outer => exact Completes.ifElse unique inner outer
      | whileDo cond body inner =>
          exact Completes.whileDo unique inner fun fewer below => earlier fewer below _
      | doWhile body cond inner =>
          exact Completes.doWhile unique inner fun fewer below => earlier fewer below _
      | leave => exact Completes.leave
      | block body inner => exact Completes.block inner

/-- A statement in which every break stands in a loop ends in some store exactly if its code runs off
its end, and then the two stores differ on temporaries only. -/
theorem ends_iff_runs (stmt : Stmt) (supply : Supply) (plain : stmt.Plain)
    (nested : stmt.Nested false) (meaning : Meaning V) (store : Store V) :
    ((∃ final, stmt.Runs meaning store .normal final) ↔
      ∃ final, Ends meaning (stmt.code [] supply) store final) ∧
    ∀ final memory, stmt.Runs meaning store .normal final →
      Ends meaning (stmt.code [] supply) store memory → final.Agrees memory := by
  have unique := (stmt.drawn_code [] supply).1
  have placed : Placed (stmt.code [] supply) stmt [] supply 0 :=
    ⟨.whole _, plain, nested, by simp⟩
  have forward : ∀ final, stmt.Runs meaning store .normal final →
      ∃ memory, Ends meaning (stmt.code [] supply) store memory ∧ final.Agrees memory := by
    intro final runs
    obtain ⟨steps, pc, memory, run, rfl, agrees⟩ := runs.executed unique placed (.refl store)
    rw [Nat.zero_add] at run
    exact ⟨memory, ⟨steps, run⟩, agrees⟩
  refine ⟨⟨?_, ?_⟩, ?_⟩
  · rintro ⟨final, runs⟩
    obtain ⟨memory, ends, _⟩ := forward final runs
    exact ⟨memory, ends⟩
  · rintro ⟨memory, steps, run⟩
    obtain ⟨_, _, _, exit, final, _, leads, runs, _⟩ :=
      completes unique meaning steps stmt placed (.refl store) (Nat.le_refl _) ⟨memory, run⟩
    cases exit with
    | normal => exact ⟨final, runs⟩
    | broke =>
        obtain ⟨label, innermost, _⟩ := leads
        cases innermost
  · intro final memory runs ends
    obtain ⟨other, also, agrees⟩ := forward final runs
    rw [Ends.unique ends also]
    exact agrees

end Stmt

end ThreeAddress
