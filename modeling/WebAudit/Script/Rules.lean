import WebAudit.Finding.Detector

/-!
# Rules for scripts
-/

namespace WebAudit.Script.Rules

def dynamicEval : Rule where
  id := "dynamic-eval"
  concern := .security
  severity := .critical
  title := "Dynamic code evaluation"
  description := "Strings are compiled and executed as code at runtime."
  impact := "Attacker-influenced strings reaching eval can run arbitrary code."
  recommendation := "Replace dynamic evaluation with explicit logic or JSON.parse()."
  remediation := Step.numbered
    [("Remove eval",
      "Rewrite the logic without compiling strings.",
      some "// Instead of:\neval('handle' + name + '()');\n\n// Use:\nhandlers[name]();"),
     ("Pass functions to timers",
      "Give setTimeout/setInterval a function instead of a string.",
      some "setTimeout(() => refresh(), 1000);")]
  tags := ["eval", "injection"]

def unsanitizedMarkupWrite : Rule where
  id := "unsanitized-markup-write"
  concern := .security
  severity := .high
  title := "Cross-site scripting risk"
  description := "Markup is written into the document without sanitization."
  impact := "Injected markup can execute scripts in users' browsers."
  recommendation := "Use textContent, or sanitize markup before inserting it."
  remediation := Step.numbered
    [("Prefer text APIs",
      "Assign plain text through textContent.",
      some ("// Instead of:\nelement.innerHTML = userInput;\n\n// Use:\nelement.textContent " ++
              "= userInput;")),
     ("Sanitize markup",
      "Run required markup through a sanitizer such as DOMPurify.",
      some "element.innerHTML = DOMPurify.sanitize(html);")]
  tags := ["xss"]

def sqlInjection : Rule where
  id := "sql-injection"
  concern := .security
  severity := .critical
  title := "SQL injection vulnerability"
  description := "An SQL statement is assembled from runtime values."
  impact := "Values spliced into a query can change its meaning and expose or destroy data."
  recommendation := "Use parameterized queries or a query builder."
  remediation := Step.numbered
    [("Use placeholders",
      "Pass values separately from the statement text.",
      some ("// Instead of:\nconst query = `SELECT * FROM users WHERE id = " ++
              "$\x7buserId\x7d`;\n\n// Use:\nconst query = 'SELECT * FROM users WHERE id = " ++
              "?';\ndb.query(query, [userId]);"))]
  tags := ["sql", "injection"]

def hardcodedSecret : Rule where
  id := "hardcoded-secret"
  concern := .security
  severity := .medium
  title := "Possible hardcoded secret"
  description := "A string literal appears to contain a credential."
  impact := "Secrets committed to source are exposed to everyone with access to it."
  recommendation := "Load credentials from environment variables or a secret store."
  remediation := Step.numbered
    [("Move the value out of source",
      "Read it from the environment at runtime.",
      some "const apiKey = process.env.API_KEY;"),
     ("Rotate the secret",
      "Assume the committed value is compromised.", none)]
  tags := ["secrets"]

def domQueryInLoop : Rule where
  id := "dom-query-in-loop"
  concern := .performance
  severity := .medium
  title := "DOM query inside a loop"
  description := "The document is queried on every loop iteration."
  impact := "Repeated DOM lookups slow down rendering and scripting."
  recommendation := "Query the element once before the loop and reuse it."
  remediation := Step.numbered
    [("Hoist the lookup",
      "Store the element in a variable outside the loop.",
      some ("const list = document.getElementById('list');\nfor (const item of items) \x7b\n " ++
              " list.append(item);\n\x7d"))]
  tags := ["dom"]

def oversizedLiteral : Rule where
  id := "oversized-literal"
  concern := .performance
  severity := .low
  title := "Very large literal"
  description := "An array or object literal is very large."
  impact := "Large inline data increases bundle size and parse time."
  recommendation := "Load large data sets from a separate resource."
  tags := ["bundle-size"]

def unclearedInterval : Rule where
  id := "uncleared-interval"
  concern := .performance
  severity := .medium
  title := "Interval never cleared"
  description := "setInterval() is used but clearInterval() never appears in the file."
  impact := "Intervals that are never cleared keep running and leak memory."
  recommendation := "Keep the interval handle and clear it when it is no longer needed."
  remediation := Step.numbered
    [("Clear the interval",
      "Call clearInterval() during cleanup.",
      some "const id = setInterval(poll, 1000);\n// later\nclearInterval(id);")]
  tags := ["memory-leak"]

def unremovedListener : Rule where
  id := "unremoved-listener"
  concern := .performance
  severity := .low
  title := "Event listener never removed"
  description := "addEventListener() is used but removeEventListener() never appears in the file."
  impact := "Listeners that outlive their element keep it alive in memory."
  recommendation := "Remove listeners when the component is torn down."
  remediation := Step.numbered
    [("Add cleanup",
      "Remove the listener in the matching teardown code.",
      some ("useEffect(() => \x7b\n  window.addEventListener('resize', onResize);\n  return " ++
              "() => window.removeEventListener('resize', onResize);\n\x7d, []);"))]
  tags := ["memory-leak"]

def highComplexity : Rule where
  id := "high-complexity"
  concern := .quality
  severity := .medium
  title := "High cyclomatic complexity"
  description := "A function has too many independent paths."
  impact := "Complex functions are hard to test and easy to break."
  recommendation := "Split the function into smaller, focused helpers."
  remediation := Step.numbered
    [("Extract helpers",
      "Move independent branches into named functions.", none),
     ("Flatten conditionals",
      "Use early returns or lookup tables instead of nested branches.", none)]
  tags := ["complexity", "maintainability"]

def highAverageComplexity : Rule where
  id := "high-average-complexity"
  concern := .quality
  severity := .medium
  title := "High average complexity"
  description := "Functions in this file are complex on average."
  impact := "The file as a whole is hard to reason about and review."
  recommendation := "Refactor the most complex functions first."
  tags := ["complexity", "maintainability"]

def excessParameters : Rule where
  id := "excess-parameters"
  concern := .quality
  severity := .low
  title := "Too many parameters"
  description := "A function declares too many parameters."
  impact := "Long parameter lists are easy to call incorrectly."
  recommendation := "Group related parameters into an options object."
  remediation := Step.numbered
    [("Use an options object",
      "Pass named values in a single object.",
      some "function createUser(\x7b name, email, role, team, locale, timezone \x7d) \x7b\x7d")]
  tags := ["maintainability"]

def legacyDeclaration : Rule where
  id := "legacy-declaration"
  concern := .quality
  severity := .low
  title := "Use of var"
  description := "A variable is declared with var."
  impact := "var is function-scoped and hoisted, which invites subtle bugs."
  recommendation := "Declare variables with const or let."
  tags := ["style"]

def debugStatement : Rule where
  id := "debug-statement"
  concern := .quality
  severity := .low
  title := "Console statement"
  description := "A debugging statement was left in the code."
  impact := "Debug output leaks internals and clutters the console."
  recommendation := "Remove it or route it through a proper logger."
  tags := ["debugging"]

def unhandledAsync : Rule where
  id := "unhandled-async"
  concern := .quality
  severity := .medium
  title := "Missing error handling"
  description := "An operation that can fail has no error handling."
  impact := "Rejected promises and parse errors surface as uncaught exceptions."
  recommendation := "Wrap the operation in try/catch or attach a .catch() handler."
  remediation := Step.numbered
    [("Handle failures",
      "Catch the error where the operation runs.",
      some ("try \x7b\n  const response = await fetch(url);\n  return await " ++
              "response.json();\n\x7d catch (error) \x7b\n  showError(error);\n\x7d"))]
  tags := ["error-handling", "async"]

def explicitAny : Rule where
  id := "explicit-any"
  concern := .quality
  severity := .medium
  title := "Explicit any type"
  description := "A value is annotated with the any type."
  impact := "any disables type checking for everything it touches."
  recommendation := "Use a precise type, or unknown with a type guard."
  tags := ["typescript", "type-safety"]

def typeCheckSuppressed : Rule where
  id := "type-check-suppressed"
  concern := .quality
  severity := .low
  title := "Type checking suppressed"
  description := "A @ts-ignore comment silences the type checker."
  impact := "Suppressed errors hide real type mistakes."
  recommendation := "Fix the underlying type error, or use @ts-expect-error with a reason."
  tags := ["typescript", "type-safety"]

def oversizedFile : Rule where
  id := "oversized-file"
  concern := .quality
  severity := .low
  title := "Large file"
  description := "The file is very long."
  impact := "Large files are hard to navigate and review."
  recommendation := "Split the file into smaller modules."
  tags := ["maintainability"]

end WebAudit.Script.Rules
