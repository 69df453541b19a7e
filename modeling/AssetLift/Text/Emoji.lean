import AssetLift.Text.Blank
import AssetLift.Text.Lowercase

/-!
# Emoji by name

A text may name an emoji between colons, in letters of any case. A name that ends in `-emoji` or
`-text` also chooses how the emoji is drawn.

* `Emoji.find?` — the emoji of a name: a symbol, a person with or without a tone of skin, a flag.
* `Emoji.replace` — a text with the emoji that it names; a name that is none stays.
-/

namespace AssetLift

namespace Emoji

/-! ## Tables -/

/-- Symbols after their names. -/
def symbols : List String :=
  ["+1 👍 -1 👎 100 💯 1234 🔢 1st_place_medal 🥇 2nd_place_medal 🥈 3rd_place_medal 🥉 8ball 🎱 __1 👎",
    "a 🅰 a_button_(blood_type) 🅰 ab 🆎 ab_button_(blood_type) 🆎 abacus 🧮 abc 🔤 abcd 🔡 accept 🉑",
    "adhesive_bandage 🩹 admission_tickets 🎟 aerial_tramway 🚡 airplane ✈ airplane_arrival 🛬",
    "airplane_arriving 🛬 airplane_departure 🛫 alarm_clock ⏰ alembic ⚗ alien 👽 alien_monster 👾",
    "ambulance 🚑 american_football 🏈 amphora 🏺 anchor ⚓ angel 👼 anger 💢 anger_symbol 💢 angry 😠",
    "angry_face 😠 angry_face_with_horns 👿 anguished 😧 anguished_face 😧 ant 🐜 antenna_bars 📶",
    "anxious_face_with_sweat 😰 apple 🍎 aquarius ♒ aries ♈ arrow_backward ◀ arrow_double_down ⏬",
    "arrow_double_up ⏫ arrow_down ⬇ arrow_down_small 🔽 arrow_forward ▶ arrow_heading_down ⤵",
    "arrow_heading_up ⤴ arrow_left ⬅ arrow_lower_left ↙ arrow_lower_right ↘ arrow_right ➡",
    "arrow_right_hook ↪ arrow_up ⬆ arrow_up_down ↕ arrow_up_small 🔼 arrow_upper_left ↖",
    "arrow_upper_right ↗ arrows_clockwise 🔃 arrows_counterclockwise 🔄 art 🎨 articulated_lorry 🚛",
    "artist_palette 🎨 astonished 😲 astonished_face 😲 athletic_shoe 👟 atm 🏧 atm_sign 🏧",
    "atom_symbol ⚛ auto_rickshaw 🛺 automobile 🚗 avocado 🥑 axe 🪓 b 🅱 b_button_(blood_type) 🅱",
    "baby_bottle 🍼 baby_chick 🐤 baby_symbol 🚼 back 🔙 back_arrow 🔙 bacon 🥓 badger 🦡 badminton 🏸",
    "badminton_racquet_and_shuttlecock 🏸 bagel 🥯 baggage_claim 🛄 baguette_bread 🥖",
    "balance_scale ⚖ bald 🦲 bald_man 👨\u200d🦲 bald_woman 👩\u200d🦲 ballet_shoes 🩰 balloon 🎈",
    "ballot_box_with_ballot 🗳 ballot_box_with_check ☑ bamboo 🎍 banana 🍌 bangbang ‼ banjo 🪕",
    "bank 🏦 bar_chart 📊 barber 💈 barber_pole 💈 baseball ⚾ basket 🧺 basketball 🏀 bat 🦇 bath 🛀",
    "bathtub 🛁 battery 🔋 beach_with_umbrella 🏖 beaming_face_with_smiling_eyes 😁 bear 🐻",
    "bear_face 🐻 beating_heart 💓 bed 🛏 bee 🐝 beer 🍺 beer_mug 🍺 beers 🍻 beetle 🐞 beginner 🔰",
    "bell 🔔 bell_with_slash 🔕 bellhop_bell 🛎 bento 🍱 bento_box 🍱 beverage_box 🧃 bicycle 🚲",
    "bicyclist 🚴 bike 🚲 bikini 👙 billed_cap 🧢 biohazard ☣ biohazard_sign ☣ bird 🐦 birthday 🎂",
    "birthday_cake 🎂 black_circle ⚫ black_circle_for_record ⏺ black_flag 🏴 black_heart 🖤",
    "black_joker 🃏 black_large_square ⬛ black_left__pointing_double_triangle_with_vertical_bar ⏮",
    "black_medium-small_square ◾ black_medium_small_square ◾ black_medium_square ◼ black_nib ✒",
    "black_right__pointing_double_triangle_with_vertical_bar ⏭",
    "black_right__pointing_triangle_with_double_vertical_bar ⏯ black_small_square ▪",
    "black_square_button 🔲 black_square_for_stop ⏹ blossom 🌼 blowfish 🐡 blue_book 📘 blue_car 🚙",
    "blue_circle 🔵 blue_heart 💙 blue_square 🟦 blush 😊 boar 🐗 boat ⛵ bomb 💣 bone 🦴 book 📖",
    "bookmark 🔖 bookmark_tabs 📑 books 📚 boom 💥 boot 👢 bottle_with_popping_cork 🍾 bouquet 💐 bow 🙇",
    "bow_and_arrow 🏹 bowl_with_spoon 🥣 bowling 🎳 boxing_glove 🥊 brain 🧠 bread 🍞 brick 🧱",
    "bridge_at_night 🌉 briefcase 💼 briefs 🩲 bright_button 🔆 broccoli 🥦 broken_heart 💔 broom 🧹",
    "brown_circle 🟤 brown_heart 🤎 brown_square 🟫 bug 🐛 building_construction 🏗 bulb 💡",
    "bullet_train 🚅 bullettrain_front 🚅 bullettrain_side 🚄 burrito 🌯 bus 🚌 bus_stop 🚏 busstop 🚏",
    "bust_in_silhouette 👤 busts_in_silhouette 👥 butter 🧈 butterfly 🦋 cactus 🌵 cake 🍰 calendar 📆",
    "calling 📲 camel 🐫 camera 📷 camera_with_flash 📸 camping 🏕 cancer ♋ candle 🕯 candy 🍬",
    "canned_food 🥫 canoe 🛶 capital_abcd 🔠 capricorn ♑ car 🚗 card_file_box 🗃 card_index 📇",
    "card_index_dividers 🗂 carousel_horse 🎠 carp_streamer 🎏 carrot 🥕 castle 🏰 cat 🐱 cat2 🐈",
    "cat_face 🐱 cat_face_with_tears_of_joy 😹 cat_face_with_wry_smile 😼 cd 💿 chains ⛓ chair 🪑",
    "chart 💹 chart_decreasing 📉 chart_increasing 📈 chart_increasing_with_yen 💹",
    "chart_with_downwards_trend 📉 chart_with_upwards_trend 📈 checkered_flag 🏁 cheese_wedge 🧀",
    "chequered_flag 🏁 cherries 🍒 cherry_blossom 🌸 chess_pawn ♟ chestnut 🌰 chicken 🐔",
    "children_crossing 🚸 chipmunk 🐿 chocolate_bar 🍫 chopsticks 🥢 christmas_tree 🎄 church ⛪",
    "cigarette 🚬 cinema 🎦 circled_m Ⓜ circus_tent 🎪 city_sunrise 🌇 city_sunset 🌆 cityscape 🏙",
    "cityscape_at_dusk 🌆 cl 🆑 cl_button 🆑 clamp 🗜 clap 👏 clapper 🎬 clapper_board 🎬",
    "classical_building 🏛 clinking_beer_mugs 🍻 clinking_glasses 🥂 clipboard 📋 clock1 🕐 clock10 🕙",
    "clock1030 🕥 clock11 🕚 clock1130 🕦 clock12 🕛 clock1230 🕧 clock130 🕜 clock2 🕑 clock230 🕝",
    "clock3 🕒 clock330 🕞 clock4 🕓 clock430 🕟 clock5 🕔 clock530 🕠 clock6 🕕 clock630 🕡 clock7 🕖",
    "clock730 🕢 clock8 🕗 clock830 🕣 clock9 🕘 clock930 🕤 clockwise_vertical_arrows 🔃",
    "closed_book 📕 closed_lock_with_key 🔐 closed_mailbox_with_lowered_flag 📪",
    "closed_mailbox_with_raised_flag 📫 closed_umbrella 🌂 cloud ☁ cloud_with_lightning 🌩",
    "cloud_with_lightning_and_rain ⛈ cloud_with_rain 🌧 cloud_with_snow 🌨 cloud_with_tornado 🌪",
    "clown_face 🤡 club_suit ♣ clubs ♣ clutch_bag 👝 coat 🧥 cocktail 🍸 cocktail_glass 🍸 coconut 🥥",
    "cocos_(keeling)_islands 🇨🇨 coffee ☕ coffin ⚰ cold_face 🥶 cold_sweat 😰 collision 💥 comet ☄",
    "compass 🧭 compression 🗜 computer 💻 computer_disk 💽 computer_mouse 🖱 confetti_ball 🎊",
    "confounded 😖 confounded_face 😖 confused 😕 confused_face 😕 congo_-_brazzaville 🇨🇬",
    "congo_-_kinshasa 🇨🇩 congratulations ㊗ construction 🚧 control_knobs 🎛 convenience_store 🏪",
    "cooked_rice 🍚 cookie 🍪 cooking 🍳 cool 🆒 cool_button 🆒 cop 👮 copyright © corn 🌽",
    "couch_and_lamp 🛋 counterclockwise_arrows_button 🔄 couple 👫 couple_with_heart 💑",
    "couple_with_heart_man_man 👨\u200d❤\ufe0f\u200d👨",
    "couple_with_heart_woman_man 👩\u200d❤\ufe0f\u200d👨",
    "couple_with_heart_woman_woman 👩\u200d❤\ufe0f\u200d👩 couplekiss 💏 cow 🐮 cow2 🐄 cow_face 🐮",
    "cowboy_hat_face 🤠 crab 🦀 crayon 🖍 credit_card 💳 crescent_moon 🌙 cricket 🦗",
    "cricket_bat_and_ball 🏏 cricket_game 🏏 crocodile 🐊 croissant 🥐 cross_mark ❌",
    "cross_mark_button ❎ crossed_flags 🎌 crossed_swords ⚔ crown 👑 cry 😢 crying_cat_face 😿",
    "crying_face 😢 crystal_ball 🔮 cucumber 🥒 cup_with_straw 🥤 cupcake 🧁 cupid 💘 curling_stone 🥌",
    "curly-haired_man 👨\u200d🦱 curly-haired_woman 👩\u200d🦱 curly_hair 🦱 curly_loop ➰",
    "currency_exchange 💱 curry 🍛 curry_rice 🍛 custard 🍮 customs 🛃 cut_of_meat 🥩 cyclone 🌀",
    "czechia 🇨🇿 dagger 🗡 dagger_knife 🗡 dancer 💃 dancers 👯 dango 🍡 dark_skin_tone 🏿",
    "dark_sunglasses 🕶 dart 🎯 dash 💨 dashing_away 💨 date 📅 deaf_person 🧏 deciduous_tree 🌳 deer 🦌",
    "delivery_truck 🚚 department_store 🏬 derelict_house 🏚 derelict_house_building 🏚 desert 🏜",
    "desert_island 🏝 desktop_computer 🖥 diamond_shape_with_a_dot_inside 💠 diamond_suit ♦",
    "diamond_with_a_dot 💠 diamonds ♦ dim_button 🔅 direct_hit 🎯 disappointed 😞",
    "disappointed_face 😞 disappointed_relieved 😥 diving_mask 🤿 diya_lamp 🪔 dizzy 💫 dizzy_face 😵",
    "dna 🧬 do_not_litter 🚯 dog 🐶 dog2 🐕 dog_face 🐶 dollar 💵 dollar_banknote 💵 dolls 🎎 dolphin 🐬",
    "door 🚪 dotted_six-pointed_star 🔯 double_curly_loop ➿ double_exclamation_mark ‼",
    "double_vertical_bar ⏸ doughnut 🍩 dove 🕊 dove_of_peace 🕊 down-left_arrow ↙",
    "down-right_arrow ↘ down_arrow ⬇ downcast_face_with_sweat 😓 downwards_button 🔽 dragon 🐉",
    "dragon_face 🐲 dress 👗 dromedary_camel 🐪 drooling_face 🤤 drop_of_blood 🩸 droplet 💧 drum 🥁",
    "duck 🦆 dumpling 🥟 dvd 📀 e-mail 📧 e__mail 📧 eagle 🦅 ear_of_corn 🌽 ear_of_rice 🌾",
    "ear_with_hearing_aid 🦻 earth_africa 🌍 earth_americas 🌎 earth_asia 🌏 egg 🍳 eggplant 🍆",
    "eight 8\ufe0f\u20e3 eight-pointed_star ✴ eight-spoked_asterisk ✳ eight-thirty 🕣",
    "eight_o’clock 🕗 eight_pointed_black_star ✴ eight_spoked_asterisk ✳ eject_button ⏏",
    "eject_symbol ⏏ electric_plug 🔌 elephant 🐘 eleven-thirty 🕦 eleven_o’clock 🕚 email ✉",
    "emoji_modifier_fitzpatrick_type__1__2 🏻 emoji_modifier_fitzpatrick_type__3 🏼",
    "emoji_modifier_fitzpatrick_type__4 🏽 emoji_modifier_fitzpatrick_type__5 🏾",
    "emoji_modifier_fitzpatrick_type__6 🏿 end 🔚 end_arrow 🔚 envelope ✉ envelope_with_arrow 📩",
    "euro 💶 euro_banknote 💶 european_castle 🏰 european_post_office 🏤 evergreen_tree 🌲 ewe 🐑",
    "exclamation ❗ exclamation_mark ❗ exclamation_question_mark ⁉ exploding_head 🤯",
    "expressionless 😑 expressionless_face 😑 eye 👁 eye_in_speech_bubble 👁\ufe0f\u200d🗨\ufe0f",
    "eyeglasses 👓 eyes 👀 face_blowing_a_kiss 😘 face_savoring_food 😋 face_screaming_in_fear 😱",
    "face_vomiting 🤮 face_with_hand_over_mouth 🤭 face_with_head-bandage 🤕",
    "face_with_head__bandage 🤕 face_with_medical_mask 😷 face_with_monocle 🧐",
    "face_with_open_mouth 😮 face_with_raised_eyebrow 🤨 face_with_rolling_eyes 🙄",
    "face_with_steam_from_nose 😤 face_with_symbols_on_mouth 🤬 face_with_tears_of_joy 😂",
    "face_with_thermometer 🤒 face_with_tongue 😛 face_without_mouth 😶 facepunch 👊 factory 🏭",
    "falafel 🧆 fallen_leaf 🍂 family 👪 family_man_boy 👨\u200d👦 family_man_boy_boy 👨\u200d👦\u200d👦",
    "family_man_girl 👨\u200d👧 family_man_girl_boy 👨\u200d👧\u200d👦",
    "family_man_girl_girl 👨\u200d👧\u200d👧 family_man_man_boy 👨\u200d👨\u200d👦",
    "family_man_man_boy_boy 👨\u200d👨\u200d👦\u200d👦 family_man_man_girl 👨\u200d👨\u200d👧",
    "family_man_man_girl_boy 👨\u200d👨\u200d👧\u200d👦",
    "family_man_man_girl_girl 👨\u200d👨\u200d👧\u200d👧 family_man_woman_boy 👨\u200d👩\u200d👦",
    "family_man_woman_boy_boy 👨\u200d👩\u200d👦\u200d👦 family_man_woman_girl 👨\u200d👩\u200d👧",
    "family_man_woman_girl_boy 👨\u200d👩\u200d👧\u200d👦",
    "family_man_woman_girl_girl 👨\u200d👩\u200d👧\u200d👧 family_woman_boy 👩\u200d👦",
    "family_woman_boy_boy 👩\u200d👦\u200d👦 family_woman_girl 👩\u200d👧",
    "family_woman_girl_boy 👩\u200d👧\u200d👦 family_woman_girl_girl 👩\u200d👧\u200d👧",
    "family_woman_woman_boy 👩\u200d👩\u200d👦 family_woman_woman_boy_boy 👩\u200d👩\u200d👦\u200d👦",
    "family_woman_woman_girl 👩\u200d👩\u200d👧 family_woman_woman_girl_boy 👩\u200d👩\u200d👧\u200d👦",
    "family_woman_woman_girl_girl 👩\u200d👩\u200d👧\u200d👧 fast-forward_button ⏩",
    "fast_down_button ⏬ fast_forward ⏩ fast_reverse_button ⏪ fast_up_button ⏫ fax 📠",
    "fax_machine 📠 fearful 😨 fearful_face 😨 feet 🐾 female_sign ♀ ferris_wheel 🎡 ferry ⛴",
    "field_hockey 🏑 field_hockey_stick_and_ball 🏑 file_cabinet 🗄 file_folder 📁 film_frames 🎞",
    "film_projector 📽 fire 🔥 fire_engine 🚒 fire_extinguisher 🧯 firecracker 🧨 fireworks 🎆",
    "first_quarter_moon 🌓 first_quarter_moon_face 🌛 first_quarter_moon_with_face 🌛 fish 🐟",
    "fish_cake 🍥 fish_cake_with_swirl 🍥 fishing_pole 🎣 fishing_pole_and_fish 🎣 fist ✊",
    "five 5\ufe0f\u20e3 five-thirty 🕠 five_o’clock 🕔 flag_for_cocos__islands 🇨🇨",
    "flag_for_congo____brazzaville 🇨🇬 flag_for_congo____kinshasa 🇨🇩 flag_for_czech_republic 🇨🇿",
    "flag_for_guinea__bissau 🇬🇼 flag_for_hong_kong 🇭🇰 flag_for_japan 🇯🇵 flag_for_macau 🇲🇴",
    "flag_for_myanmar 🇲🇲 flag_for_timor__leste 🇹🇱 flag_for_turkey 🇹🇷 flag_in_hole ⛳ flags 🎏",
    "flamingo 🦩 flashlight 🔦 flat_shoe 🥿 fleur-de-lis ⚜ fleur__de__lis ⚜ flipper 🐬 floppy_disk 💾",
    "flower_playing_cards 🎴 flushed 😳 flushed_face 😳 flying_disc 🥏 flying_saucer 🛸 fog 🌫 foggy 🌁",
    "foot 🦶 football 🏈 footprints 👣 fork_and_knife 🍴 fork_and_knife_with_plate 🍽",
    "fortune_cookie 🥠 fountain ⛲ fountain_pen 🖋 four 4\ufe0f\u20e3 four-thirty 🕟",
    "four_leaf_clover 🍀 four_o’clock 🕓 fox_face 🦊 frame_with_picture 🖼 framed_picture 🖼 free 🆓",
    "free_button 🆓 french_fries 🍟 fried_shrimp 🍤 fries 🍟 frog 🐸 frog_face 🐸",
    "front-facing_baby_chick 🐥 frowning 😦 frowning_face ☹ frowning_face_with_open_mouth 😦",
    "fuel_pump ⛽ fuelpump ⛽ full_moon 🌕 full_moon_face 🌝 full_moon_with_face 🌝 funeral_urn ⚱",
    "game_die 🎲 garlic 🧄 gear ⚙ gem 💎 gem_stone 💎 gemini ♊ genie 🧞 ghost 👻 gift 🎁 gift_heart 💝",
    "giraffe 🦒 glass_of_milk 🥛 glasses 👓 globe_showing_americas 🌎 globe_showing_asia-australia 🌏",
    "globe_showing_europe-africa 🌍 globe_with_meridians 🌐 gloves 🧤 glowing_star 🌟 goal_net 🥅",
    "goat 🐐 goblin 👺 goggles 🥽 golf ⛳ golfer 🏌 gorilla 🦍 graduation_cap 🎓 grapes 🍇 green_apple 🍏",
    "green_book 📗 green_circle 🟢 green_heart 💚 green_salad 🥗 green_square 🟩 grey_exclamation ❕",
    "grey_question ❔ grimacing 😬 grimacing_face 😬 grin 😁 grinning 😀 grinning_cat_face 😺",
    "grinning_cat_face_with_smiling_eyes 😸 grinning_face 😀 grinning_face_with_big_eyes 😃",
    "grinning_face_with_smiling_eyes 😄 grinning_face_with_sweat 😅 grinning_squinting_face 😆",
    "growing_heart 💗 guardsman 💂 guide_dog 🦮 guinea-bissau 🇬🇼 guitar 🎸 gun 🔫 haircut 💇",
    "hamburger 🍔 hammer 🔨 hammer_and_pick ⚒ hammer_and_wrench 🛠 hamster 🐹 hamster_face 🐹 hand ✋",
    "handbag 👜 handshake 🤝 hankey 💩 hatched_chick 🐥 hatching_chick 🐣 headphone 🎧 headphones 🎧",
    "hear-no-evil_monkey 🙉 hear_no_evil 🙉 heart ❤ heart_decoration 💟 heart_eyes 😍",
    "heart_eyes_cat 😻 heart_suit ♥ heart_with_arrow 💘 heart_with_ribbon 💝 heartbeat 💓",
    "heartpulse 💗 hearts ♥ heavy_check_mark ✔ heavy_division_sign ➗ heavy_dollar_sign 💲",
    "heavy_exclamation_mark ❗ heavy_heart_exclamation ❣ heavy_heart_exclamation_mark_ornament ❣",
    "heavy_large_circle ⭕ heavy_minus_sign ➖ heavy_multiplication_x ✖ heavy_plus_sign ➕",
    "hedgehog 🦔 helicopter 🚁 helm_symbol ⎈ helmet_with_white_cross ⛑ herb 🌿 hibiscus 🌺",
    "high-heeled_shoe 👠 high-speed_train 🚄 high_brightness 🔆 high_heel 👠 high_voltage ⚡",
    "hiking_boot 🥾 hindu_temple 🛕 hippopotamus 🦛 hocho 🔪 hole 🕳 honey_pot 🍯 honeybee 🐝",
    "hong_kong_sar_china 🇭🇰 horizontal_traffic_light 🚥 horse 🐴 horse_face 🐴 hospital 🏥",
    "hot_beverage ☕ hot_dog 🌭 hot_face 🥵 hot_pepper 🌶 hot_springs ♨ hotel 🏨 hotsprings ♨",
    "hourglass ⌛ hourglass_done ⌛ hourglass_flowing_sand ⏳ hourglass_not_done ⏳ house 🏠",
    "house_buildings 🏘 house_with_garden 🏡 houses 🏘 hugging_face 🤗 hundred_points 💯 hushed 😯",
    "hushed_face 😯 ice 🧊 ice_cream 🍨 ice_hockey 🏒 ice_hockey_stick_and_puck 🏒 ice_skate ⛸",
    "icecream 🍦 id 🆔 id_button 🆔 ideograph_advantage 🉐 imp 👿 inbox_tray 📥 incoming_envelope 📨",
    "infinity ♾ information ℹ information_desk_person 💁 information_source ℹ innocent 😇",
    "input_latin_letters 🔤 input_latin_lowercase 🔡 input_latin_uppercase 🔠 input_numbers 🔢",
    "input_symbols 🔣 interrobang ⁉ iphone 📱 izakaya_lantern 🏮 jack-o-lantern 🎃 jack_o_lantern 🎃",
    "japan 🗾 japanese_acceptable_button 🉑 japanese_application_button 🈸",
    "japanese_bargain_button 🉐 japanese_castle 🏯 japanese_congratulations_button ㊗",
    "japanese_discount_button 🈹 japanese_dolls 🎎 japanese_free_of_charge_button 🈚",
    "japanese_goblin 👺 japanese_here_button 🈁 japanese_monthly_amount_button 🈷",
    "japanese_no_vacancy_button 🈵 japanese_not_free_of_charge_button 🈶 japanese_ogre 👹",
    "japanese_open_for_business_button 🈺 japanese_passing_grade_button 🈴 japanese_post_office 🏣",
    "japanese_prohibited_button 🈲 japanese_reserved_button 🈯 japanese_secret_button ㊙",
    "japanese_service_charge_button 🈂 japanese_symbol_for_beginner 🔰 japanese_vacancy_button 🈳",
    "jeans 👖 jigsaw 🧩 joker 🃏 joy 😂 joy_cat 😹 joystick 🕹 kaaba 🕋 kangaroo 🦘 key 🔑 keyboard ⌨",
    "keycap_# #\ufe0f\u20e3 keycap_* *\ufe0f\u20e3 keycap_0 0\ufe0f\u20e3 keycap_1 1\ufe0f\u20e3",
    "keycap_10 🔟 keycap_2 2\ufe0f\u20e3 keycap_3 3\ufe0f\u20e3 keycap_4 4\ufe0f\u20e3",
    "keycap_5 5\ufe0f\u20e3 keycap_6 6\ufe0f\u20e3 keycap_7 7\ufe0f\u20e3 keycap_8 8\ufe0f\u20e3",
    "keycap_9 9\ufe0f\u20e3 keycap_asterisk *\u20e3 keycap_digit_eight 8\u20e3",
    "keycap_digit_five 5\u20e3 keycap_digit_four 4\u20e3 keycap_digit_nine 9\u20e3",
    "keycap_digit_one 1\u20e3 keycap_digit_seven 7\u20e3 keycap_digit_six 6\u20e3",
    "keycap_digit_three 3\u20e3 keycap_digit_two 2\u20e3 keycap_digit_zero 0\u20e3",
    "keycap_number_sign #\u20e3 kick_scooter 🛴 kimono 👘 kiss 💋",
    "kiss_man_man 👨\u200d❤\ufe0f\u200d💋\u200d👨 kiss_mark 💋",
    "kiss_woman_man 👩\u200d❤\ufe0f\u200d💋\u200d👨 kiss_woman_woman 👩\u200d❤\ufe0f\u200d💋\u200d👩",
    "kissing 😗 kissing_cat 😽 kissing_cat_face 😽 kissing_closed_eyes 😚 kissing_face 😗",
    "kissing_face_with_closed_eyes 😚 kissing_face_with_smiling_eyes 😙 kissing_heart 😘",
    "kissing_smiling_eyes 😙 kitchen_knife 🔪 kite 🪁 kiwi_fruit 🥝 knife 🔪 koala 🐨 koko 🈁",
    "lab_coat 🥼 label 🏷 lacrosse 🥍 lady_beetle 🐞 lantern 🏮 laptop_computer 💻 large_blue_circle 🔵",
    "large_blue_diamond 🔷 large_orange_diamond 🔶 last_quarter_moon 🌗 last_quarter_moon_face 🌜",
    "last_quarter_moon_with_face 🌜 last_track_button ⏮ latin_cross ✝ laughing 😆",
    "leaf_fluttering_in_wind 🍃 leafy_green 🥬 leaves 🍃 ledger 📒 left-right_arrow ↔ left_arrow ⬅",
    "left_arrow_curving_right ↪ left_luggage 🛅 left_right_arrow ↔ left_speech_bubble 🗨",
    "leftwards_arrow_with_hook ↩ leg 🦵 lemon 🍋 leo ♌ leopard 🐆 level_slider 🎚 libra ♎",
    "light_bulb 💡 light_rail 🚈 light_skin_tone 🏻 link 🔗 linked_paperclips 🖇 lion_face 🦁 lips 👄",
    "lipstick 💄 litter_in_bin_sign 🚮 lizard 🦎 llama 🦙 lobster 🦞 lock 🔒 lock_with_ink_pen 🔏",
    "locked 🔒 locked_with_key 🔐 locked_with_pen 🔏 locomotive 🚂 lollipop 🍭 loop ➿ lotion_bottle 🧴",
    "loud_sound 🔊 loudly_crying_face 😭 loudspeaker 📢 love_hotel 🏩 love_letter 💌 low_brightness 🔅",
    "lower_left_ballpoint_pen 🖊 lower_left_crayon 🖍 lower_left_fountain_pen 🖋",
    "lower_left_paintbrush 🖌 luggage 🧳 lying_face 🤥 m Ⓜ macau_sar_china 🇲🇴 mag 🔍 mag_right 🔎",
    "magnet 🧲 magnifying_glass_tilted_left 🔍 magnifying_glass_tilted_right 🔎 mahjong 🀄",
    "mahjong_red_dragon 🀄 mailbox 📫 mailbox_closed 📪 mailbox_with_mail 📬 mailbox_with_no_mail 📭",
    "male_sign ♂ man_and_woman_holding_hands 👫 man_genie 🧞\u200d♂\ufe0f",
    "man_in_business_suit_levitating 🕴 man_in_manual_wheelchair 👨\u200d🦽",
    "man_in_motorized_wheelchair 👨\u200d🦼 man_with_gua_pi_mao 👲 man_with_probing_cane 👨\u200d🦯",
    "man_with_turban 👳 man_zombie 🧟\u200d♂\ufe0f mango 🥭 mans_shoe 👞 mantelpiece_clock 🕰",
    "manual_wheelchair 🦽 man’s_shoe 👞 map_of_japan 🗾 maple_leaf 🍁 martial_arts_uniform 🥋 mask 😷",
    "massage 💆 mate 🧉 meat_on_bone 🍖 mechanical_arm 🦾 mechanical_leg 🦿 medical_symbol ⚕",
    "medium_dark_skin_tone 🏾 medium_light_skin_tone 🏼 medium_skin_tone 🏽 mega 📣 megaphone 📣",
    "melon 🍈 memo 📝 men_with_bunny_ears 👯\u200d♂\ufe0f men_wrestling 🤼\u200d♂\ufe0f menorah 🕎",
    "menorah_with_nine_branches 🕎 mens 🚹 men’s_room 🚹 metro 🚇 microbe 🦠 microphone 🎤",
    "microscope 🔬 military_medal 🎖 milky_way 🌌 minibus 🚐 minidisc 💽 moai 🗿 mobile_phone 📱",
    "mobile_phone_off 📴 mobile_phone_with_arrow 📲 money-mouth_face 🤑 money__mouth_face 🤑",
    "money_bag 💰 money_with_wings 💸 moneybag 💰 monkey 🐒 monkey_face 🐵 monorail 🚝 moon 🌔",
    "moon_cake 🥮 moon_viewing_ceremony 🎑 mortar_board 🎓 mosque 🕌 mosquito 🦟 motor_boat 🛥",
    "motor_scooter 🛵 motorcycle 🏍 motorized_wheelchair 🦼 motorway 🛣 mount_fuji 🗻 mountain ⛰",
    "mountain_bicyclist 🚵 mountain_cableway 🚠 mountain_railway 🚞 mouse 🐭 mouse2 🐁 mouse_face 🐭",
    "mouth 👄 movie_camera 🎥 moyai 🗿 muscle 💪 mushroom 🍄 musical_keyboard 🎹 musical_note 🎵",
    "musical_notes 🎶 musical_score 🎼 mute 🔇 muted_speaker 🔇 myanmar_(burma) 🇲🇲 nail_care 💅",
    "name_badge 📛 national_park 🏞 nauseated_face 🤢 nazar_amulet 🧿 necktie 👔",
    "negative_squared_cross_mark ❎ nerd_face 🤓 neutral_face 😐 new 🆕 new_button 🆕 new_moon 🌑",
    "new_moon_face 🌚 new_moon_with_face 🌚 newspaper 📰 next_track_button ⏭ ng 🆖 ng_button 🆖",
    "night_with_stars 🌃 nine 9\ufe0f\u20e3 nine-thirty 🕤 nine_o’clock 🕘 no_bell 🔕 no_bicycles 🚳",
    "no_entry ⛔ no_entry_sign 🚫 no_good 🙅 no_littering 🚯 no_mobile_phones 📵 no_mouth 😶",
    "no_one_under_eighteen 🔞 no_pedestrians 🚷 no_smoking 🚭 non-potable_water 🚱",
    "non__potable_water 🚱 notebook 📓 notebook_with_decorative_cover 📔 notes 🎶 nut_and_bolt 🔩 o ⭕",
    "o2 🅾 o_button_(blood_type) 🅾 ocean 🌊 octopus 🐙 oden 🍢 office 🏢 office_building 🏢 ogre 👹",
    "oil_drum 🛢 ok 🆗 ok_button 🆗 ok_woman 🙆 old_key 🗝 older_man 👴 older_woman 👵 om 🕉 om_symbol 🕉",
    "on 🔛 on!_arrow 🔛 oncoming_automobile 🚘 oncoming_bus 🚍 oncoming_police_car 🚔 oncoming_taxi 🚖",
    "one 1\ufe0f\u20e3 one-piece_swimsuit 🩱 one-thirty 🕜 one_o’clock 🕐 onion 🧅 open_book 📖",
    "open_file_folder 📂 open_mailbox_with_lowered_flag 📭 open_mailbox_with_raised_flag 📬",
    "open_mouth 😮 ophiuchus ⛎ optical_disk 💿 orange_book 📙 orange_circle 🟠 orange_heart 🧡",
    "orange_square 🟧 orangutan 🦧 orthodox_cross ☦ otter 🦦 outbox_tray 📤 owl 🦉 ox 🐂 oyster 🦪",
    "p_button 🅿 package 📦 page_facing_up 📄 page_with_curl 📃 pager 📟 paintbrush 🖌 palm_tree 🌴",
    "pancakes 🥞 panda_face 🐼 paperclip 📎 parking 🅿 parrot 🦜 part_alternation_mark 〽",
    "partly_sunny ⛅ party_popper 🎉 partying_face 🥳 passenger_ship 🛳 passport_control 🛂",
    "pause_button ⏸ paw_prints 🐾 peace_symbol ☮ peach 🍑 peacock 🦚 peanuts 🥜 pear 🍐 pen 🖊",
    "pencil 📝 pencil2 ✏ penguin 🐧 pensive 😔 pensive_face 😔 people_holding_hands 🧑\u200d🤝\u200d🧑",
    "people_with_bunny_ears 👯 people_wrestling 🤼 performing_arts 🎭 persevere 😣",
    "persevering_face 😣 person_fencing 🤺 person_kneeling 🧎 person_standing 🧍 person_with_ball ⛹",
    "person_with_blond_hair 👱 person_with_pouting_face 🙎 petri_dish 🧫 phone ☎ pick ⛏ pie 🥧 pig 🐷",
    "pig2 🐖 pig_face 🐷 pig_nose 🐽 pile_of_poo 💩 pill 💊 pinching_hand 🤏 pine_decoration 🎍",
    "pineapple 🍍 ping_pong 🏓 pirate_flag 🏴\u200d☠\ufe0f pisces ♓ pistol 🔫 pizza 🍕",
    "place_of_worship 🛐 play_button ▶ play_or_pause_button ⏯ pleading_face 🥺 point_down 👇",
    "point_left 👈 point_right 👉 point_up ☝ point_up_2 👆 police_car 🚓 police_car_light 🚨 poodle 🐩",
    "pool_8_ball 🎱 poop 💩 popcorn 🍿 post_office 🏣 postal_horn 📯 postbox 📮 pot_of_food 🍲",
    "potable_water 🚰 potato 🥔 pouch 👝 poultry_leg 🍗 pound 💷 pound_banknote 💷 pouting_cat 😾",
    "pouting_cat_face 😾 pouting_face 😡 pray 🙏 prayer_beads 📿 pretzel 🥨 printer 🖨 probing_cane 🦯",
    "prohibited 🚫 punch 👊 purple_circle 🟣 purple_heart 💜 purple_square 🟪 purse 👛 pushpin 📌",
    "put_litter_in_its_place 🚮 question ❓ question_mark ❓ rabbit 🐰 rabbit2 🐇 rabbit_face 🐰",
    "raccoon 🦝 racehorse 🐎 racing_car 🏎 racing_motorcycle 🏍 radio 📻 radio_button 🔘 radioactive ☢",
    "radioactive_sign ☢ rage 😡 railway_car 🚃 railway_track 🛤 rainbow 🌈",
    "rainbow_flag 🏳\ufe0f\u200d🌈 raised_hand_with_fingers_splayed 🖐",
    "raised_hand_with_part_between_middle_and_ring_fingers 🖖 raised_hands 🙌 raising_hand 🙋 ram 🐏",
    "ramen 🍜 rat 🐀 razor 🪒 receipt 🧾 record_button ⏺ recycle ♻ recycling_symbol ♻",
    "red-haired_man 👨\u200d🦰 red-haired_woman 👩\u200d🦰 red_apple 🍎 red_car 🚗 red_circle 🔴",
    "red_envelope 🧧 red_hair 🦰 red_heart ❤ red_paper_lantern 🏮 red_square 🟥",
    "red_triangle_pointed_down 🔻 red_triangle_pointed_up 🔺 regional_indicator_a 🇦",
    "regional_indicator_b 🇧 regional_indicator_c 🇨 regional_indicator_d 🇩 regional_indicator_e 🇪",
    "regional_indicator_f 🇫 regional_indicator_g 🇬 regional_indicator_h 🇭 regional_indicator_i 🇮",
    "regional_indicator_j 🇯 regional_indicator_k 🇰 regional_indicator_l 🇱 regional_indicator_m 🇲",
    "regional_indicator_n 🇳 regional_indicator_o 🇴 regional_indicator_p 🇵 regional_indicator_q 🇶",
    "regional_indicator_r 🇷 regional_indicator_s 🇸 regional_indicator_symbol_letter_a 🇦",
    "regional_indicator_symbol_letter_b 🇧 regional_indicator_symbol_letter_c 🇨",
    "regional_indicator_symbol_letter_d 🇩 regional_indicator_symbol_letter_e 🇪",
    "regional_indicator_symbol_letter_f 🇫 regional_indicator_symbol_letter_g 🇬",
    "regional_indicator_symbol_letter_h 🇭 regional_indicator_symbol_letter_i 🇮",
    "regional_indicator_symbol_letter_j 🇯 regional_indicator_symbol_letter_k 🇰",
    "regional_indicator_symbol_letter_l 🇱 regional_indicator_symbol_letter_m 🇲",
    "regional_indicator_symbol_letter_n 🇳 regional_indicator_symbol_letter_o 🇴",
    "regional_indicator_symbol_letter_p 🇵 regional_indicator_symbol_letter_q 🇶",
    "regional_indicator_symbol_letter_r 🇷 regional_indicator_symbol_letter_s 🇸",
    "regional_indicator_symbol_letter_t 🇹 regional_indicator_symbol_letter_u 🇺",
    "regional_indicator_symbol_letter_v 🇻 regional_indicator_symbol_letter_w 🇼",
    "regional_indicator_symbol_letter_x 🇽 regional_indicator_symbol_letter_y 🇾",
    "regional_indicator_symbol_letter_z 🇿 regional_indicator_t 🇹 regional_indicator_u 🇺",
    "regional_indicator_v 🇻 regional_indicator_w 🇼 regional_indicator_x 🇽 regional_indicator_y 🇾",
    "regional_indicator_z 🇿 registered ® relaxed ☺ relieved 😌 relieved_face 😌 reminder_ribbon 🎗",
    "repeat 🔁 repeat_button 🔁 repeat_one 🔂 repeat_single_button 🔂 rescue_worker’s_helmet ⛑",
    "restroom 🚻 reverse_button ◀ reversed_hand_with_middle_finger_extended 🖕 revolving_hearts 💞",
    "rewind ⏪ rhinoceros 🦏 ribbon 🎀 rice 🍚 rice_ball 🍙 rice_cracker 🍘 rice_scene 🎑",
    "right_anger_bubble 🗯 right_arrow ➡ right_arrow_curving_down ⤵ right_arrow_curving_left ↩",
    "right_arrow_curving_up ⤴ ring 💍 ringed_planet 🪐 roasted_sweet_potato 🍠 robot 🤖 robot_face 🤖",
    "rocket 🚀 roll_of_paper 🧻 rolled-up_newspaper 🗞 rolled__up_newspaper 🗞 roller_coaster 🎢",
    "rolling_on_the_floor_laughing 🤣 rooster 🐓 rose 🌹 rosette 🏵 rotating_light 🚨 round_pushpin 📍",
    "rowboat 🚣 rugby_football 🏉 runner 🏃 running 🏃 running_shirt 🎽 running_shirt_with_sash 🎽",
    "running_shoe 👟 sa 🈂 sad_but_relieved_face 😥 safety_pin 🧷 safety_vest 🦺 sagittarius ♐",
    "sailboat ⛵ sake 🍶 salt 🧂 sandal 👡 sandwich 🥪 santa 🎅 sari 🥻 satellite 📡 satellite_antenna 📡",
    "satisfied 😆 sauropod 🦕 saxophone 🎷 scales ⚖ scarf 🧣 school 🏫 school_backpack 🎒",
    "school_satchel 🎒 scissors ✂ scorpio ♏ scorpion 🦂 scorpius ♏ scream 😱 scream_cat 🙀 scroll 📜",
    "seat 💺 secret ㊙ see-no-evil_monkey 🙈 see_no_evil 🙈 seedling 🌱 service_dog 🐕\u200d🦺",
    "seven 7\ufe0f\u20e3 seven-thirty 🕢 seven_o’clock 🕖 shallow_pan_of_food 🥘 shamrock ☘ shark 🦈",
    "shaved_ice 🍧 sheaf_of_rice 🌾 sheep 🐑 shell 🐚 shield 🛡 shinto_shrine ⛩ ship 🚢 shirt 👕 shit 💩",
    "shoe 👞 shooting_star 🌠 shopping_bags 🛍 shopping_cart 🛒 shortcake 🍰 shorts 🩳 shower 🚿",
    "shrimp 🦐 shuffle_tracks_button 🔀 shushing_face 🤫 signal_strength 📶 six 6\ufe0f\u20e3",
    "six-thirty 🕡 six_o’clock 🕕 six_pointed_star 🔯 skateboard 🛹 ski 🎿 skier ⛷ skis 🎿 skull 💀",
    "skull_and_crossbones ☠ skunk 🦨 sled 🛷 sleeping 😴 sleeping_accommodation 🛌 sleeping_face 😴",
    "sleepy 😪 sleepy_face 😪 sleuth_or_spy 🕵 slightly_frowning_face 🙁 slightly_smiling_face 🙂",
    "slot_machine 🎰 sloth 🦥 small_airplane 🛩 small_blue_diamond 🔹 small_orange_diamond 🔸",
    "small_red_triangle 🔺 small_red_triangle_down 🔻 smile 😄 smile_cat 😸 smiley 😃 smiley_cat 😺",
    "smiling_cat_face_with_heart-eyes 😻 smiling_face ☺ smiling_face_with_3_hearts 🥰",
    "smiling_face_with_halo 😇 smiling_face_with_heart-eyes 😍 smiling_face_with_horns 😈",
    "smiling_face_with_smiling_eyes 😊 smiling_face_with_sunglasses 😎 smiling_imp 😈 smirk 😏",
    "smirk_cat 😼 smirking_face 😏 smoking 🚬 snail 🐌 snake 🐍 sneezing_face 🤧",
    "snow-capped_mountain 🏔 snow_capped_mountain 🏔 snowflake ❄ snowman ☃ snowman_without_snow ⛄",
    "soap 🧼 sob 😭 soccer ⚽ soccer_ball ⚽ socks 🧦 soft_ice_cream 🍦 softball 🥎 soon 🔜 soon_arrow 🔜",
    "sos 🆘 sos_button 🆘 sound 🔉 space_invader 👾 spade_suit ♠ spades ♠ spaghetti 🍝 sparkle ❇",
    "sparkler 🎇 sparkles ✨ sparkling_heart 💖 speak-no-evil_monkey 🙊 speak_no_evil 🙊 speaker 🔈",
    "speaker_high_volume 🔊 speaker_low_volume 🔈 speaker_medium_volume 🔉 speaking_head 🗣",
    "speaking_head_in_silhouette 🗣 speech_balloon 💬 speedboat 🚤 spider 🕷 spider_web 🕸",
    "spiral_calendar 🗓 spiral_calendar_pad 🗓 spiral_note_pad 🗒 spiral_notepad 🗒 spiral_shell 🐚",
    "sponge 🧽 spoon 🥄 sport_utility_vehicle 🚙 sports_medal 🏅 spouting_whale 🐳 squid 🦑",
    "squinting_face_with_tongue 😝 stadium 🏟 star ⭐ star-struck 🤩 star2 🌟 star_and_crescent ☪",
    "star_of_david ✡ stars 🌠 station 🚉 statue_of_liberty 🗽 steam_locomotive 🚂 steaming_bowl 🍜",
    "stethoscope 🩺 stew 🍲 stop_button ⏹ stop_sign 🛑 stopwatch ⏱ straight_ruler 📏 strawberry 🍓",
    "stuck_out_tongue 😛 stuck_out_tongue_closed_eyes 😝 stuck_out_tongue_winking_eye 😜",
    "studio_microphone 🎙 stuffed_flatbread 🥙 sun ☀ sun_behind_cloud ⛅ sun_behind_large_cloud 🌥",
    "sun_behind_rain_cloud 🌦 sun_behind_small_cloud 🌤 sun_with_face 🌞 sunflower 🌻 sunglasses 😎",
    "sunny ☀ sunrise 🌅 sunrise_over_mountains 🌄 sunset 🌇 superhero 🦸 supervillain 🦹 surfer 🏄",
    "sushi 🍣 suspension_railway 🚟 swan 🦢 sweat 😓 sweat_droplets 💦 sweat_drops 💦 sweat_smile 😅",
    "sweet_potato 🍠 swimmer 🏊 symbols 🔣 synagogue 🕍 syringe 💉 t-rex 🦖 t-shirt 👕",
    "table_tennis_paddle_and_ball 🏓 taco 🌮 tada 🎉 takeout_box 🥡 tanabata_tree 🎋 tangerine 🍊",
    "taurus ♉ taxi 🚕 tea 🍵 teacup_without_handle 🍵 tear-off_calendar 📆 teddy_bear 🧸 telephone ☎",
    "telephone_receiver 📞 telescope 🔭 television 📺 ten 🔟 ten-thirty 🕥 ten_o’clock 🕙 tennis 🎾",
    "tent ⛺ test_tube 🧪 thermometer 🌡 thinking_face 🤔 thought_balloon 💭 thread 🧵",
    "three 3\ufe0f\u20e3 three-thirty 🕞 three_button_mouse 🖱 three_o’clock 🕒 thumbsdown 👎",
    "thumbsup 👍 thunder_cloud_and_rain ⛈ ticket 🎫 tiger 🐯 tiger2 🐅 tiger_face 🐯 timer_clock ⏲",
    "timor-leste 🇹🇱 tired_face 😫 tm ™ toilet 🚽 tokyo_tower 🗼 tomato 🍅 tongue 👅 toolbox 🧰 tooth 🦷",
    "top 🔝 top_arrow 🔝 top_hat 🎩 tophat 🎩 tornado 🌪 trackball 🖲 tractor 🚜 trade_mark ™",
    "traffic_light 🚥 train 🚋 train2 🚆 tram 🚊 tram_car 🚋 triangular_flag 🚩",
    "triangular_flag_on_post 🚩 triangular_ruler 📐 trident 🔱 trident_emblem 🔱 triumph 😤",
    "trolleybus 🚎 trophy 🏆 tropical_drink 🍹 tropical_fish 🐠 truck 🚚 trumpet 🎺 tshirt 👕 tulip 🌷",
    "tumbler_glass 🥃 turkey 🦃 turtle 🐢 tv 📺 twelve-thirty 🕧 twelve_o’clock 🕛",
    "twisted_rightwards_arrows 🔀 two 2\ufe0f\u20e3 two-hump_camel 🐫 two-thirty 🕝 two_hearts 💕",
    "two_men_holding_hands 👬 two_o’clock 🕑 two_women_holding_hands 👭 u5272 🈹 u5408 🈴 u55b6 🈺",
    "u6307 🈯 u6708 🈷 u6709 🈶 u6e80 🈵 u7121 🈚 u7533 🈸 u7981 🈲 u7a7a 🈳 umbrella ☂",
    "umbrella_on_ground ⛱ umbrella_with_rain_drops ☔ unamused 😒 unamused_face 😒 underage 🔞",
    "unicorn_face 🦄 united_nations 🇺🇳 unlock 🔓 unlocked 🔓 up 🆙 up!_button 🆙 up-down_arrow ↕",
    "up-left_arrow ↖ up-right_arrow ↗ up_arrow ⬆ upside-down_face 🙃 upside__down_face 🙃",
    "upwards_button 🔼 v ✌ vertical_traffic_light 🚦 vhs 📼 vibration_mode 📳 video_camera 📹",
    "video_game 🎮 videocassette 📼 violin 🎻 virgo ♍ volcano 🌋 volleyball 🏐 vs 🆚 vs_button 🆚",
    "waffle 🧇 walking 🚶 waning_crescent_moon 🌘 waning_gibbous_moon 🌖 warning ⚠ wastebasket 🗑",
    "watch ⌚ water_buffalo 🐃 water_closet 🚾 water_wave 🌊 watermelon 🍉 wave 👋 waving_black_flag 🏴",
    "waving_white_flag 🏳 wavy_dash 〰 waxing_crescent_moon 🌒 waxing_gibbous_moon 🌔 wc 🚾 weary 😩",
    "weary_cat_face 🙀 weary_face 😩 wedding 💒 weight_lifter 🏋 whale 🐳 whale2 🐋 wheel_of_dharma ☸",
    "wheelchair ♿ wheelchair_symbol ♿ white-haired_man 👨\u200d🦳 white-haired_woman 👩\u200d🦳",
    "white_check_mark ✅ white_circle ⚪ white_exclamation_mark ❕ white_flag 🏳 white_flower 💮",
    "white_frowning_face ☹ white_hair 🦳 white_heart 🤍 white_heavy_check_mark ✅",
    "white_large_square ⬜ white_medium-small_square ◽ white_medium_small_square ◽",
    "white_medium_square ◻ white_medium_star ⭐ white_question_mark ❔ white_small_square ▫",
    "white_square_button 🔳 white_sun_behind_cloud 🌥 white_sun_behind_cloud_with_rain 🌦",
    "white_sun_with_small_cloud 🌤 wilted_flower 🥀 wind_blowing_face 🌬 wind_chime 🎐 wind_face 🌬",
    "wine_glass 🍷 wink 😉 winking_face 😉 winking_face_with_tongue 😜 wolf 🐺 wolf_face 🐺",
    "woman_genie 🧞\u200d♀\ufe0f woman_in_manual_wheelchair 👩\u200d🦽",
    "woman_in_motorized_wheelchair 👩\u200d🦼 woman_with_probing_cane 👩\u200d🦯",
    "woman_zombie 🧟\u200d♀\ufe0f womans_clothes 👚 womans_hat 👒 woman’s_boot 👢 woman’s_clothes 👚",
    "woman’s_hat 👒 woman’s_sandal 👡 women_with_bunny_ears 👯\u200d♀\ufe0f",
    "women_wrestling 🤼\u200d♀\ufe0f womens 🚺 women’s_room 🚺 woozy_face 🥴 world_map 🗺 worried 😟",
    "worried_face 😟 wrapped_gift 🎁 wrench 🔧 x ❌ yarn 🧶 yawning_face 🥱 yellow_circle 🟡",
    "yellow_heart 💛 yellow_square 🟨 yen 💴 yen_banknote 💴 yin_yang ☯ yo-yo 🪀 yum 😋 zany_face 🤪",
    "zap ⚡ zebra 🦓 zero 0\ufe0f\u20e3 zipper-mouth_face 🤐 zipper__mouth_face 🤐 zombie 🧟 zzz 💤"]

/-- People, and parts of them, after their names. Each also has five tones of skin. -/
def people : List String :=
  ["adult 🧑 baby 👶 baby_angel 👼 backhand_index_pointing_down 👇 backhand_index_pointing_left 👈",
    "backhand_index_pointing_right 👉 backhand_index_pointing_up 👆 bearded_person 🧔",
    "blond-haired_man 👱\u200d♂\ufe0f blond-haired_person 👱 blond-haired_woman 👱\u200d♀\ufe0f",
    "boy 👦 breast-feeding 🤱 bride_with_veil 👰 call_me_hand 🤙 child 🧒 clapping_hands 👏",
    "construction_worker 👷 crossed_fingers 🤞 detective 🕵 ear 👂 elf 🧝 fairy 🧚 flexed_biceps 💪",
    "folded_hands 🙏 girl 👧 guard 💂 hand_with_fingers_splayed 🖐 horse_racing 🏇",
    "index_pointing_up ☝ left-facing_fist 🤛 love-you_gesture 🤟 mage 🧙 man 👨 man_artist 👨\u200d🎨",
    "man_astronaut 👨\u200d🚀 man_biking 🚴\u200d♂\ufe0f man_bouncing_ball ⛹\ufe0f\u200d♂\ufe0f",
    "man_bowing 🙇\u200d♂\ufe0f man_cartwheeling 🤸\u200d♂\ufe0f man_climbing 🧗\u200d♂\ufe0f",
    "man_construction_worker 👷\u200d♂\ufe0f man_cook 👨\u200d🍳 man_dancing 🕺",
    "man_detective 🕵\ufe0f\u200d♂\ufe0f man_elf 🧝\u200d♂\ufe0f man_facepalming 🤦\u200d♂\ufe0f",
    "man_factory_worker 👨\u200d🏭 man_fairy 🧚\u200d♂\ufe0f man_farmer 👨\u200d🌾",
    "man_firefighter 👨\u200d🚒 man_frowning 🙍\u200d♂\ufe0f man_gesturing_no 🙅\u200d♂\ufe0f",
    "man_gesturing_ok 🙆\u200d♂\ufe0f man_getting_haircut 💇\u200d♂\ufe0f",
    "man_getting_massage 💆\u200d♂\ufe0f man_golfing 🏌\ufe0f\u200d♂\ufe0f",
    "man_guard 💂\u200d♂\ufe0f man_health_worker 👨\u200d⚕\ufe0f",
    "man_in_lotus_position 🧘\u200d♂\ufe0f man_in_steamy_room 🧖\u200d♂\ufe0f",
    "man_in_suit_levitating 🕴 man_in_tuxedo 🤵 man_judge 👨\u200d⚖\ufe0f",
    "man_juggling 🤹\u200d♂\ufe0f man_lifting_weights 🏋\ufe0f\u200d♂\ufe0f",
    "man_mage 🧙\u200d♂\ufe0f man_mechanic 👨\u200d🔧 man_mountain_biking 🚵\u200d♂\ufe0f",
    "man_office_worker 👨\u200d💼 man_pilot 👨\u200d✈\ufe0f man_playing_handball 🤾\u200d♂\ufe0f",
    "man_playing_water_polo 🤽\u200d♂\ufe0f man_police_officer 👮\u200d♂\ufe0f",
    "man_pouting 🙎\u200d♂\ufe0f man_raising_hand 🙋\u200d♂\ufe0f man_rowing_boat 🚣\u200d♂\ufe0f",
    "man_running 🏃\u200d♂\ufe0f man_scientist 👨\u200d🔬 man_shrugging 🤷\u200d♂\ufe0f",
    "man_singer 👨\u200d🎤 man_student 👨\u200d🎓 man_surfing 🏄\u200d♂\ufe0f",
    "man_swimming 🏊\u200d♂\ufe0f man_teacher 👨\u200d🏫 man_technologist 👨\u200d💻",
    "man_tipping_hand 💁\u200d♂\ufe0f man_vampire 🧛\u200d♂\ufe0f man_walking 🚶\u200d♂\ufe0f",
    "man_wearing_turban 👳\u200d♂\ufe0f man_with_chinese_cap 👲 mermaid 🧜\u200d♀\ufe0f",
    "merman 🧜\u200d♂\ufe0f merperson 🧜 middle_finger 🖕 mrs._claus 🤶 nail_polish 💅 nose 👃",
    "ok_hand 👌 old_man 👴 old_woman 👵 older_adult 🧓 oncoming_fist 👊 open_hands 👐",
    "palms_up_together 🤲 person_biking 🚴 person_bouncing_ball ⛹ person_bowing 🙇",
    "person_cartwheeling 🤸 person_climbing 🧗 person_facepalming 🤦 person_frowning 🙍",
    "person_gesturing_no 🙅 person_gesturing_ok 🙆 person_getting_haircut 💇",
    "person_getting_massage 💆 person_golfing 🏌 person_in_bed 🛌 person_in_lotus_position 🧘",
    "person_in_steamy_room 🧖 person_juggling 🤹 person_lifting_weights 🏋 person_mountain_biking 🚵",
    "person_playing_handball 🤾 person_playing_water_polo 🤽 person_pouting 🙎",
    "person_raising_hand 🙋 person_rowing_boat 🚣 person_running 🏃 person_shrugging 🤷",
    "person_surfing 🏄 person_swimming 🏊 person_taking_bath 🛀 person_tipping_hand 💁",
    "person_walking 🚶 person_wearing_turban 👳 police_officer 👮 pregnant_woman 🤰 prince 🤴",
    "princess 👸 raised_back_of_hand 🤚 raised_fist ✊ raised_hand ✋ raising_hands 🙌",
    "right-facing_fist 🤜 santa_claus 🎅 selfie 🤳 sign_of_the_horns 🤘 snowboarder 🏂 thumbs_down 👎",
    "thumbs_up 👍 vampire 🧛 victory_hand ✌ vulcan_salute 🖖 waving_hand 👋 woman 👩",
    "woman_artist 👩\u200d🎨 woman_astronaut 👩\u200d🚀 woman_biking 🚴\u200d♀\ufe0f",
    "woman_bouncing_ball ⛹\ufe0f\u200d♀\ufe0f woman_bowing 🙇\u200d♀\ufe0f",
    "woman_cartwheeling 🤸\u200d♀\ufe0f woman_climbing 🧗\u200d♀\ufe0f",
    "woman_construction_worker 👷\u200d♀\ufe0f woman_cook 👩\u200d🍳 woman_dancing 💃",
    "woman_detective 🕵\ufe0f\u200d♀\ufe0f woman_elf 🧝\u200d♀\ufe0f",
    "woman_facepalming 🤦\u200d♀\ufe0f woman_factory_worker 👩\u200d🏭 woman_fairy 🧚\u200d♀\ufe0f",
    "woman_farmer 👩\u200d🌾 woman_firefighter 👩\u200d🚒 woman_frowning 🙍\u200d♀\ufe0f",
    "woman_gesturing_no 🙅\u200d♀\ufe0f woman_gesturing_ok 🙆\u200d♀\ufe0f",
    "woman_getting_haircut 💇\u200d♀\ufe0f woman_getting_massage 💆\u200d♀\ufe0f",
    "woman_golfing 🏌\ufe0f\u200d♀\ufe0f woman_guard 💂\u200d♀\ufe0f",
    "woman_health_worker 👩\u200d⚕\ufe0f woman_in_lotus_position 🧘\u200d♀\ufe0f",
    "woman_in_steamy_room 🧖\u200d♀\ufe0f woman_judge 👩\u200d⚖\ufe0f",
    "woman_juggling 🤹\u200d♀\ufe0f woman_lifting_weights 🏋\ufe0f\u200d♀\ufe0f",
    "woman_mage 🧙\u200d♀\ufe0f woman_mechanic 👩\u200d🔧 woman_mountain_biking 🚵\u200d♀\ufe0f",
    "woman_office_worker 👩\u200d💼 woman_pilot 👩\u200d✈\ufe0f",
    "woman_playing_handball 🤾\u200d♀\ufe0f woman_playing_water_polo 🤽\u200d♀\ufe0f",
    "woman_police_officer 👮\u200d♀\ufe0f woman_pouting 🙎\u200d♀\ufe0f",
    "woman_raising_hand 🙋\u200d♀\ufe0f woman_rowing_boat 🚣\u200d♀\ufe0f",
    "woman_running 🏃\u200d♀\ufe0f woman_scientist 👩\u200d🔬 woman_shrugging 🤷\u200d♀\ufe0f",
    "woman_singer 👩\u200d🎤 woman_student 👩\u200d🎓 woman_surfing 🏄\u200d♀\ufe0f",
    "woman_swimming 🏊\u200d♀\ufe0f woman_teacher 👩\u200d🏫 woman_technologist 👩\u200d💻",
    "woman_tipping_hand 💁\u200d♀\ufe0f woman_vampire 🧛\u200d♀\ufe0f woman_walking 🚶\u200d♀\ufe0f",
    "woman_wearing_turban 👳\u200d♀\ufe0f woman_with_headscarf 🧕 writing_hand ✍"]

/-- The letters of countries after their names. -/
def countries : List String :=
  ["afghanistan AF albania AL algeria DZ american_samoa AS andorra AD angola AO anguilla AI",
    "antarctica AQ antigua_&_barbuda AG argentina AR armenia AM aruba AW ascension_island AC",
    "australia AU austria AT azerbaijan AZ bahamas BS bahrain BH bangladesh BD barbados BB",
    "belarus BY belgium BE belize BZ benin BJ bermuda BM bhutan BT bolivia BO",
    "bosnia_&_herzegovina BA botswana BW bouvet_island BV brazil BR",
    "british_indian_ocean_territory IO british_virgin_islands VG brunei BN bulgaria BG",
    "burkina_faso BF burundi BI cambodia KH cameroon CM canada CA canary_islands IC",
    "cape_verde CV caribbean_netherlands BQ cayman_islands KY central_african_republic CF",
    "ceuta_&_melilla EA chad TD chile CL china CN christmas_island CX clipperton_island CP",
    "colombia CO comoros KM cook_islands CK costa_rica CR croatia HR cuba CU curaçao CW",
    "cyprus CY côte_d’ivoire CI denmark DK diego_garcia DG djibouti DJ dominica DM",
    "dominican_republic DO ecuador EC egypt EG el_salvador SV equatorial_guinea GQ eritrea ER",
    "estonia EE ethiopia ET european_union EU falkland_islands FK faroe_islands FO fiji FJ",
    "finland FI france FR french_guiana GF french_polynesia PF french_southern_territories TF",
    "gabon GA gambia GM georgia GE germany DE ghana GH gibraltar GI greece GR greenland GL",
    "grenada GD guadeloupe GP guam GU guatemala GT guernsey GG guinea GN guyana GY haiti HT",
    "heard_&_mcdonald_islands HM honduras HN hungary HU iceland IS india IN indonesia ID iran IR",
    "iraq IQ ireland IE isle_of_man IM israel IL italy IT jamaica JM jersey JE jordan JO",
    "kazakhstan KZ kenya KE kiribati KI kosovo XK kuwait KW kyrgyzstan KG laos LA latvia LV",
    "lebanon LB lesotho LS liberia LR libya LY liechtenstein LI lithuania LT luxembourg LU",
    "macedonia MK madagascar MG malawi MW malaysia MY maldives MV mali ML malta MT",
    "marshall_islands MH martinique MQ mauritania MR mauritius MU mayotte YT mexico MX",
    "micronesia FM moldova MD monaco MC mongolia MN montenegro ME montserrat MS morocco MA",
    "mozambique MZ namibia NA nauru NR nepal NP netherlands NL new_caledonia NC new_zealand NZ",
    "nicaragua NI niger NE nigeria NG niue NU norfolk_island NF north_korea KP",
    "northern_mariana_islands MP norway NO oman OM pakistan PK palau PW",
    "palestinian_territories PS panama PA papua_new_guinea PG paraguay PY peru PE philippines PH",
    "pitcairn_islands PN poland PL portugal PT puerto_rico PR qatar QA romania RO russia RU",
    "rwanda RW réunion RE samoa WS san_marino SM saudi_arabia SA senegal SN serbia RS",
    "seychelles SC sierra_leone SL singapore SG sint_maarten SX slovakia SK slovenia SI",
    "solomon_islands SB somalia SO south_africa ZA south_georgia_&_south_sandwich_islands GS",
    "south_korea KR south_sudan SS spain ES sri_lanka LK st._barthélemy BL st._helena SH",
    "st._kitts_&_nevis KN st._lucia LC st._martin MF st._pierre_&_miquelon PM",
    "st._vincent_&_grenadines VC sudan SD suriname SR svalbard_&_jan_mayen SJ swaziland SZ",
    "sweden SE switzerland CH syria SY são_tomé_&_príncipe ST taiwan TW tajikistan TJ",
    "tanzania TZ thailand TH togo TG tokelau TK tonga TO trinidad_&_tobago TT",
    "tristan_da_cunha TA tunisia TN turkmenistan TM turks_&_caicos_islands TC tuvalu TV",
    "u.s._outlying_islands UM u.s._virgin_islands VI uganda UG ukraine UA",
    "united_arab_emirates AE united_kingdom GB united_states US uruguay UY uzbekistan UZ",
    "vanuatu VU vatican_city VA venezuela VE vietnam VN wallis_&_futuna WF western_sahara EH",
    "yemen YE zambia ZM zimbabwe ZW åland_islands AX"]

/-- The letters of regions after their names. -/
def regions : List String := ["england gbeng scotland gbsct wales gbwls"]

/-- The five tones of skin by name. -/
def tones : List (String × Char) :=
  [("light", Char.ofNat 0x1F3FB), ("medium-light", Char.ofNat 0x1F3FC),
    ("medium", Char.ofNat 0x1F3FD), ("medium-dark", Char.ofNat 0x1F3FE),
    ("dark", Char.ofNat 0x1F3FF)]

/-! ## Look-up -/

/-- The word after a name in a row of names and words. -/
def wordAfter? (name : List Char) : List (List Char) → Option (List Char)
  | key :: word :: rest => if key = name then some word else wordAfter? name rest
  | _ => none

/-- The word after a name in a table. -/
def lookup? (table : List String) (name : List Char) : Option (List Char) :=
  table.findSome? fun row => wordAfter? name (Blank.splitChars ' ' row.toList)

/-- The drawing of a flag by two letters. -/
def countryFlag (letters : List Char) : List Char :=
  letters.map fun c => Char.ofNat (0x1F1E6 + (c.toNat - 'A'.toNat))

/-- The drawing of a region's flag: a black flag, the letters as marks, and the mark that ends
them. -/
def regionFlag (letters : List Char) : List Char :=
  Char.ofNat 0x1F3F4 :: letters.map (fun c => Char.ofNat (0xE0000 + c.toNat)) ++
    [Char.ofNat 0xE007F]

/-- Asks for a drawing in colour. -/
def colourMark : Char := '\ufe0f'

/-- Asks for a drawing like a letter. -/
def letterMark : Char := '\ufe0e'

/-- A person in a tone of skin: the tone follows the first character, in place of a mark. -/
def withTone (tone : Char) : List Char → List Char
  | c :: rest => c :: tone :: (if rest.head? = some colourMark then rest.tail else rest)
  | [] => []

/-- The name without an ending. -/
def without? (ending : String) (name : List Char) : Option (List Char) :=
  if ending.toList.isSuffixOf name then some (name.take (name.length - ending.length)) else none

/-- A person in the tone that a name ends in. -/
def toned? (name : List Char) : Option (List Char) :=
  tones.findSome? fun (tone, mark) => do
    let person ← without? ("_" ++ tone ++ "_skin_tone") name
    withTone mark <$> lookup? people person

/-- The flag of a country, by its name alone or in full. -/
def flag? (name : List Char) : Option (List Char) :=
  let country := if "flag_for_".toList.isPrefixOf name then name.drop 9 else name
  countryFlag <$> lookup? countries country

/-- The emoji of a name in small letters. -/
def find? (name : List Char) : Option (List Char) :=
  lookup? symbols name <|> lookup? people name <|> flag? name <|> toned? name <|>
    (regionFlag <$> lookup? regions name)

/-! ## Replacement -/

/-- A name without its choice of a drawing, and the mark of that choice. -/
def splitMark (name : List Char) : List Char × List Char :=
  match without? "-emoji" name, without? "-text" name with
  | some stem, _ => (stem, [colourMark])
  | none, some stem => (stem, [letterMark])
  | none, none => (name, [])

/-- The name that stands at the front of a text up to a colon, and what follows. -/
def nameAhead? (cs : List Char) : Option (List Char × List Char) :=
  match cs.span fun c => c ≠ ':' && !Blank.isBlank c with
  | (name, ':' :: rest) => some (name, rest)
  | _ => none

/-- The emoji that a name between colons stands for, or else the name and its colons. -/
def drawn (name : List Char) : List Char :=
  let (stem, mark) := splitMark name
  match find? (Lowercase.ofChars stem) with
  | some emoji => emoji ++ mark
  | none => ':' :: name ++ [':']

/-- A text with the emoji that it names; at most `fuel` steps. -/
def replaceFrom : Nat → List Char → List Char
  | 0, cs => cs
  | _ + 1, [] => []
  | fuel + 1, c :: rest =>
    match (if c = ':' then nameAhead? rest else none) with
    | some (name, after) => drawn name ++ replaceFrom fuel after
    | none => c :: replaceFrom fuel rest

/-- A text with the emoji that it names. -/
def replace (cs : List Char) : List Char := replaceFrom cs.length cs

end Emoji

end AssetLift
