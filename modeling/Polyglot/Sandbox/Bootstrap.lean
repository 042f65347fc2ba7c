/-!
# The sandbox script

What a fresh JavaScript context evaluates first: it speaks the sandbox messages
on its standard streams.
-/

namespace Polyglot.Sandbox

/-- The lines of the script that a sandbox evaluates first. -/
def bootstrapLines : List String :=
  [ "// Sandbox context for runnr.",
    "//",
    "// Reads EXECUTE_CODE / INPUT_RESPONSE messages as JSON lines on stdin and",
    "// answers with stdout / stderr / INPUT_REQUEST / EXECUTION_COMPLETE lines on",
    "// stdout. Submitted code runs inside a fresh vm context that only sees the",
    "// injected console and prompt function.",
    "'use strict';",
    "",
    "const readline = require('readline');",
    "const util = require('util');",
    "const vm = require('vm');",
    "",
    "const PROMPT_FUNCTION = '__runnrPrompt';",
    "",
    "function send(message) \x7b",
    "  process.stdout.write(JSON.stringify(message) + '\\n');",
    "\x7d",
    "",
    "function render(args) \x7b",
    "  return args",
    "    .map((arg) => (typeof arg === 'string' ? arg : util.inspect(arg, \x7b depth: 4 \x7d)))",
    "    .join(' ');",
    "\x7d",
    "",
    "const pendingInputs = [];",
    "",
    "const sink = \x7b",
    "  log: (...args) => send(\x7b type: 'stdout', data: render(args) \x7d),",
    "  info: (...args) => send(\x7b type: 'stdout', data: render(args) \x7d),",
    "  debug: (...args) => send(\x7b type: 'stdout', data: render(args) \x7d),",
    "  error: (...args) => send(\x7b type: 'stderr', data: render(args) \x7d),",
    "  warn: (...args) => send(\x7b type: 'stderr', data: '[WARN] ' + render(args) \x7d),",
    "\x7d;",
    "",
    "function prompt(message) \x7b",
    "  return new Promise((resolve) => \x7b",
    "    pendingInputs.push(resolve);",
    "    send(\x7b type: 'INPUT_REQUEST', message: message === undefined ? '' : String(message) \x7d);",
    "  \x7d);",
    "\x7d",
    "",
    "function createContext() \x7b",
    "  return vm.createContext(\x7b",
    "    console: sink,",
    "    [PROMPT_FUNCTION]: prompt,",
    "    setTimeout,",
    "    clearTimeout,",
    "    setInterval,",
    "    clearInterval,",
    "    queueMicrotask,",
    "  \x7d);",
    "\x7d",
    "",
    "const FRAME = /^\\s+at .*main\\.js:(\\d+)/;",
    "const LOCATION = /^main\\.js:\\d+$/;",
    "",
    "function describe(error, lineCount) \x7b",
    "  if (!error || typeof error !== 'object') \x7b",
    "    return `Error: $\x7bString(error)\x7d`;",
    "  \x7d",
    "  const name = error.name || 'Error';",
    "  const head = error.message ? `$\x7bname\x7d: $\x7berror.message\x7d` : name;",
    "  // Keep only frames inside the submitted code, not the async wrapper.",
    "  const stack = String(error.stack || '').split('\\n');",
    "  const frames = stack.filter((line) => \x7b",
    "    const frame = FRAME.exec(line);",
    "    return frame !== null && Number(frame[1]) <= lineCount;",
    "  \x7d);",
    "  if (frames.length === 0 && LOCATION.test(stack[0])) \x7b",
    "    frames.push(`    at $\x7bstack[0]\x7d`);",
    "  \x7d",
    "  return [head, ...frames].join('\\n');",
    "\x7d",
    "",
    "let queue = Promise.resolve();",
    "",
    "async function execute(code) \x7b",
    "  const context = createContext();",
    "  try \x7b",
    "    const script = new vm.Script(`(async () => \x7b\\n$\x7bcode\x7d\\n\x7d)()`, \x7b",
    "      filename: 'main.js',",
    "      lineOffset: -1,",
    "    \x7d);",
    "    await script.runInContext(context);",
    "  \x7d catch (error) \x7b",
    "    send(\x7b type: 'stderr', data: describe(error, code.split('\\n').length) \x7d);",
    "  \x7d finally \x7b",
    "    pendingInputs.length = 0;",
    "    send(\x7b type: 'EXECUTION_COMPLETE' \x7d);",
    "  \x7d",
    "\x7d",
    "",
    "const lines = readline.createInterface(\x7b input: process.stdin, terminal: false \x7d);",
    "",
    "lines.on('line', (line) => \x7b",
    "  let message;",
    "  try \x7b",
    "    message = JSON.parse(line);",
    "  \x7d catch (error) \x7b",
    "    process.stderr.write(`ignoring malformed message: $\x7bline\x7d\\n`);",
    "    return;",
    "  \x7d",
    "",
    "  switch (message.type) \x7b",
    "    case 'EXECUTE_CODE':",
    "      queue = queue.then(() => execute(String(message.code ?? '')));",
    "      break;",
    "    case 'INPUT_RESPONSE': \x7b",
    "      const resolve = pendingInputs.shift();",
    "      if (resolve) \x7b",
    "        resolve(String(message.value ?? ''));",
    "      \x7d",
    "      break;",
    "    \x7d",
    "    default:",
    "      process.stderr.write(`ignoring unknown message type: $\x7bmessage.type\x7d\\n`);",
    "  \x7d",
    "\x7d);",
    "",
    "lines.on('close', () => \x7b",
    "  // Nobody can answer once the host is gone.",
    "  while (pendingInputs.length > 0) \x7b",
    "    pendingInputs.shift()('');",
    "  \x7d",
    "  queue.finally(() => process.exit(0));",
    "\x7d);" ]

/-- The text of the script that a sandbox evaluates first. -/
def bootstrap : String :=
  String.join (bootstrapLines.map (· ++ "\n"))

end Polyglot.Sandbox
