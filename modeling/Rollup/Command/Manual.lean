namespace Rollup.Manual

def page (lines : List String) : String := String.join (lines.map (· ++ "\n"))

def overview : String := page [
  "AGGFN DOCUMENTATION",
  "",
  "aggfn formulas name one aggregation function and its parameters. Each",
  "formula builds a stateful function that consumes samples one at a time and",
  "returns the updated aggregate after every sample.",
  "",
  "DOCUMENTATION CATEGORIES",
  "",
  "  syntax            Formula grammar, tokens and whitespace rules",
  "  functions         Built-in functions and what they return",
  "  time-units        Window units accepted by sum, avg and percentile",
  "  types             Sample types each function accepts",
  "  operands          Named operands and the correl function",
  "",
  "QUICK REFERENCE",
  "",
  "  max()                     Largest sample so far",
  "  min()                     Smallest sample so far",
  "  sum(10, sec)              Sum over a 10 second window",
  "  avg(5, m)                 Mean over a 5 minute window",
  "  percentile(90, 1, h)      90th percentile over a 1 hour window",
  "  correl($requests)         Correlation with operand 'requests'",
  "",
  "Run 'aggfn doc <category>' for details."]

def grammarPage : String := page [
  "SYNTAX",
  "",
  "  expr        := NAME '(' args ')'",
  "  args(max)   := (empty)",
  "  args(min)   := (empty)",
  "  args(sum)   := INTEGER ','? timeunit",
  "  args(avg)   := INTEGER ','? timeunit",
  "  args(pct)   := INTEGER ',' INTEGER ','? timeunit",
  "  args(corr)  := '$' NAME",
  "",
  "TOKENS",
  "",
  "  NAME        letters and underscores        avg, sec, heap_used",
  "  INTEGER     ASCII digits, no sign           5, 90",
  "  ( ) , $     punctuation",
  "",
  "Spaces, tabs and newlines between tokens are ignored. There is no quoting,",
  "escaping or nesting. Any other character is an error that reports its",
  "0-based position."]

def functionsPage : String := page [
  "FUNCTIONS",
  "",
  "  max()                       double   largest sample so far",
  "  min()                       double   smallest sample so far",
  "  sum(N, unit)                double   sum of samples in the current window",
  "  avg(N, unit)                double   mean of samples in the current window",
  "  percentile(P, N, unit)      double   P-th percentile of the last 100 samples",
  "                                       in the current window",
  "  correl($name)               double   running Pearson correlation between",
  "                                       the sample and operand 'name'",
  "  extract_string(a, b, ..)    string   field a.b.. of a composite sample",
  "  extract_int(a, b, ..)       int",
  "  extract_double(a, b, ..)    double",
  "  flag()                      record   counts of true/false samples and flips",
  "  gauge_fp()                  record   last, min, max, mean, count",
  "  gauge_int()                 record   same, integral samples",
  "  ranged_gauge_fp(lo, hi)     record   gauge clamped to [lo, hi]",
  "  ranged_gauge_int(lo, hi)    record",
  "",
  "WINDOWS",
  "",
  "A window starts when the function is created. When a sample arrives more",
  "than the window length after the window started, the state is cleared",
  "first and the sample starts a new window. Nothing happens between samples."]

def timeUnitsPage : String := page [
  "TIME UNITS",
  "",
  "  s, sec, seconds       seconds",
  "  ms, millis            milliseconds",
  "  ns, nanos             nanoseconds",
  "  m, minutes            minutes",
  "  h, hours              hours",
  "  d, days               days"]

def typesPage : String := page [
  "TYPES",
  "",
  "  max, min, sum, avg, percentile, correl, gauge_fp, ranged_gauge_fp",
  "      byte, short, int, long, float, double, bigint, bigdecimal",
  "",
  "  gauge_int, ranged_gauge_int",
  "      byte, short, int, long, bigint",
  "",
  "  flag",
  "      bool",
  "",
  "  extract_string, extract_int, extract_double",
  "      composite",
  "",
  "With 'aggfn run', JSON integers are longs, other numbers doubles, and",
  "objects composites."]

def operandsPage : String := page [
  "OPERANDS",
  "",
  "correl($name) reads operand 'name' on every sample, so the correlation",
  "always pairs the sample with the operand's current value.",
  "",
  "  aggfn run 'correl($load)' --operand load=0.5",
  "",
  "or supply operands per sample:",
  "",
  "  echo '\x7b\"sample\": 3, \"operands\": \x7b\"load\": 0.7\x7d\x7d' \\",
  "    | aggfn run 'correl($load)' --with-operands",
  "",
  "Envelope operands apply to their own line only. A line without an",
  "\"operands\" key sees just the --operand bindings."]

inductive Category
  | grammar
  | functions
  | timeUnits
  | types
  | operands
  deriving DecidableEq, Repr

/-- The category of a name, in either case and with either dash. The one letter beyond ASCII whose
small form is an ASCII letter is the Kelvin sign, and no name has a `k`. -/
def Category.ofName? (name : String) : Option Category :=
  match name.map fun c => if c = '-' then '_' else c.toLower with
  | "syntax" | "grammar" => some .grammar
  | "functions" | "function" | "fns" => some .functions
  | "time_units" | "units" | "time" => some .timeUnits
  | "types" | "type" => some .types
  | "operands" | "operand" | "correl" => some .operands
  | _ => none

def Category.text : Category → String
  | grammar => grammarPage
  | functions => functionsPage
  | timeUnits => timeUnitsPage
  | types => typesPage
  | operands => operandsPage

end Rollup.Manual
