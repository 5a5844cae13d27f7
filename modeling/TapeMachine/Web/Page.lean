/-
The page that shows a stream in a browser.

* `page` is its text.
-/
namespace TapeMachine.Web

/-- The lines of the page. -/
def pageLines : List String := [
  "<!DOCTYPE html>\n",
  "<html>\n",
  "<head>\n",
  "<meta charset=\"utf-8\">\n",
  "<title>tapeworm</title>\n",
  "<style>\n",
  "body \x7b font-family: monospace; background: #1e1e2e; color: #eee; margin: 2em; \x7d\n",
  "h1 \x7b background: #7D56F4; display: inline-block; padding: 0 .5em; \x7d\n",
  "table \x7b border-collapse: collapse; margin: 1em 0; \x7d\n",
  "td \x7b border: 1px solid #444; padding: .2em .5em; text-align: right; min-width: 2.5em; \x7d\n",
  "td.active \x7b background: #7D56F4; \x7d\n",
  "tr.chars td \x7b color: #87CEEB; \x7d\n",
  "pre \x7b background: #111; padding: 1em; min-height: 2em; white-space: pre-wrap; \x7d\n",
  ".fault \x7b color: #FF6B6B; \x7d\n",
  ".ended \x7b color: #90EE90; \x7d\n",
  "</style>\n",
  "</head>\n",
  "<body>\n",
  "<h1>tapeworm</h1>\n",
  "<div id=\"status\">connecting</div>\n",
  "<table><tr id=\"values\"></tr><tr id=\"chars\" class=\"chars\"></tr></table>\n",
  "<div>output</div>\n",
  "<pre id=\"output\"></pre>\n",
  "<script>\n",
  "const proto = location.protocol === \"https:\" ? \"wss:\" : \"ws:\";\n",
  "const ws = new WebSocket(proto + \"//\" + location.host + \"/ws\");\n",
  "const status = document.getElementById(\"status\");\n",
  "const values = document.getElementById(\"values\");\n",
  "const chars = document.getElementById(\"chars\");\n",
  "const output = document.getElementById(\"output\");\n",
  "\n",
  "function cellChar(v) \x7b\n",
  "  return v >= 32 && v <= 126 ? String.fromCharCode(v) : \"·\";\n",
  "\x7d\n",
  "\n",
  "function render(frame) \x7b\n",
  "  values.innerHTML = \"\";\n",
  "  chars.innerHTML = \"\";\n",
  "  frame.tape.forEach((v, i) => \x7b\n",
  "    const value = document.createElement(\"td\");\n",
  "    const char = document.createElement(\"td\");\n",
  "    value.textContent = v;\n",
  "    char.textContent = cellChar(v);\n",
  "    if (i === frame.pointer) \x7b\n",
  "      value.className = \"active\";\n",
  "      char.className = \"active\";\n",
  "    \x7d\n",
  "    values.appendChild(value);\n",
  "    chars.appendChild(char);\n",
  "  \x7d);\n",
  "  output.textContent = frame.output;\n",
  "\x7d\n",
  "\n",
  "ws.onmessage = (event) => \x7b\n",
  "  const frame = JSON.parse(event.data);\n",
  "  render(frame);\n",
  "  if (frame.halt) \x7b\n",
  "    status.textContent = \"step \" + frame.step + \": \" + frame.halt + (frame.fault ? \" (\" + frame.fault + \")\" : \"\");\n",
  "    status.className = frame.fault ? \"fault\" : \"ended\";\n",
  "    return;\n",
  "  \x7d\n",
  "  status.textContent = \"step \" + frame.step + \": [\" + frame.command + \"] at \" + frame.position + \", pc \" + frame.pc;\n",
  "\x7d;\n",
  "\n",
  "ws.onclose = () => \x7b\n",
  "  if (!status.className) \x7b\n",
  "    status.textContent += \" (closed)\";\n",
  "  \x7d\n",
  "\x7d;\n",
  "</script>\n",
  "</body>\n",
  "</html>\n"]

/-- The page. -/
def page : String :=
  String.join pageLines

end TapeMachine.Web
